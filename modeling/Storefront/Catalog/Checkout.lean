import Storefront.Catalog.Basic

namespace Storefront.Checkout

def packageKind : Choice :=
  ⟨"Package.TypeEnum", ["single", "subscription"]⟩

def expiryUnit : Choice :=
  ⟨"Package.ExpiryPeriodEnum", ["day", "week", "month", "year"]⟩

def lineKind : Choice :=
  ⟨"AddPackageRequest.TypeEnum", ["single", "subscription"]⟩

def saleKind : Choice :=
  ⟨"Sale.DiscountTypeEnum", ["percentage", "amount"]⟩

def recurringTarget : Choice :=
  ⟨"UpdateRecurringPaymentRequest.StatusEnum", ["Paused", "Active"]⟩

def price : Schema :=
  .make "PaymentSubjectPrice" [
    Field.amount "amount" "amount",
    Field.text "currency" "currency"]

def paymentStatus : Schema :=
  .make "PaymentStatus" [
    Field.count "id" "id",
    Field.text "description" "description"]

def paymentMethod : Schema :=
  .make "PaymentSubjectPaymentMethod" [
    Field.text "name" "name",
    Field.flag "refundable" "refundable"]

def fees : Schema :=
  .make "PaymentSubjectFees" [
    Field.record "tax" "tax" price,
    Field.record "gateway" "gateway" price]

def account : Schema :=
  .make "PaymentSubjectUsername" [
    Field.text "id" "id",
    Field.text "username" "username"]

def customer : Schema :=
  .make "PaymentSubjectCustomer" [
    Field.text "first_name" "firstName",
    Field.text "last_name" "lastName",
    Field.text "email" "email",
    Field.text "ip" "ip",
    Field.record "username" "username" account,
    Field.flag "marketing_consent" "marketingConsent",
    Field.text "country" "country",
    Field.nullableText "postal_code" "postalCode"]

def product : Schema :=
  .make "PaymentSubjectProductsInner" [
    Field.count "id" "id",
    Field.text "name" "name",
    Field.count "quantity" "quantity",
    Field.record "base_price" "basePrice" price,
    Field.record "paid_price" "paidPrice" price,
    Field.anythings "variables" "variables",
    Field.nullableDate "expires_at" "expiresAt",
    Field.anything "custom" "custom",
    Field.record "username" "username" account,
    Field.anythings "servers" "servers"]

def revenueShare : Schema :=
  .make "RevenueShare" [
    Field.text "wallet_ref" "walletRef",
    Field.amount "amount" "amount",
    Field.amount "gateway_fee_percent" "gatewayFeePercent"]

def payment : Schema :=
  .make "PaymentSubject" [
    Field.text "transaction_id" "transactionId",
    Field.record "status" "status" paymentStatus,
    Field.text "payment_sequence" "paymentSequence",
    Field.date "created_at" "createdAt",
    Field.record "price" "price" price,
    Field.record "price_paid" "pricePaid" price,
    Field.record "payment_method" "paymentMethod" paymentMethod,
    Field.record "fees" "fees" fees,
    Field.record "customer" "customer" customer,
    Field.records "products" "products" product,
    Field.anythings "coupons" "coupons",
    Field.anythings "gift_cards" "giftCards",
    Field.nullableText "recurring_payment_reference" "recurringPaymentReference",
    Field.members "custom" "custom",
    Field.records "revenue_share" "revenueShare" revenueShare,
    Field.nullableAnything "decline_reason" "declineReason",
    Field.nullableText "creator_code" "creatorCode"]

def recurringStatus : Schema :=
  .make "RecurringPaymentSubjectStatus" [
    Field.count "id" "id",
    Field.text "description" "description"]

def recurringPayment : Schema :=
  .make "RecurringPaymentSubject" [
    Field.text "reference" "reference",
    Field.date "created_at" "createdAt",
    Field.nullableDate "next_payment_at" "nextPaymentAt",
    Field.record "status" "status" recurringStatus,
    Field.record "initial_payment" "initialPayment" payment,
    Field.record "last_payment" "lastPayment" payment,
    Field.count "fail_count" "failCount",
    Field.record "price" "price" price,
    Field.nullableDate "cancelled_at" "cancelledAt",
    Field.nullableText "cancel_reason" "cancelReason"]

def package : Schema :=
  .make "Package" [
    Field.text "name" "name",
    Field.amount "price" "price",
    Field.choice "type" "type" packageKind,
    Field.choice "expiry_period" "expiryPeriod" expiryUnit,
    Field.count "expiry_length" "expiryLength",
    Field.count "qty" "qty",
    Field.members "custom" "custom"]

def links : Schema :=
  .make "BasketLinks" [
    Field.text "payment" "payment",
    Field.text "checkout" "checkout"]

def priceDetails : Schema :=
  .make "PriceDetails" [
    Field.amount "fullPrice" "fullPrice",
    Field.amount "subtotal" "subtotal",
    Field.amount "total" "total",
    Field.anythings "surcharges" "surcharges"]

def basketLine : Schema :=
  .make "BasketRow" [
    Field.count "id" "id",
    Field.count "qty" "qty",
    Field.record "package" "package" package,
    Field.records "revenue_share" "revenueShare" revenueShare]

def basket : Schema :=
  .make "Basket" [
    Field.text "ident" "ident",
    Field.date "expire" "expire",
    Field.amount "price" "price",
    Field.record "priceDetails" "priceDetails" priceDetails,
    Field.nullableText "return_url" "returnUrl",
    Field.nullableText "complete_url" "completeUrl",
    Field.text "first_name" "firstName",
    Field.text "last_name" "lastName",
    Field.text "email" "email",
    Field.members "custom" "custom",
    Field.records "rows" "rows" basketLine,
    Field.record "links" "links" links]

def basketRequest : Schema :=
  .make "CreateBasketRequest" [
    Field.text "first_name" "firstName",
    Field.text "last_name" "lastName",
    Field.text "email" "email",
    Field.text "return_url" "returnUrl",
    Field.text "complete_url" "completeUrl",
    Field.members "custom" "custom",
    Field.flag "complete_auto_redirect" "completeAutoRedirect",
    Field.optionalDate "expires_at" "expiresAt"]

def lineRequest : Schema :=
  .make "AddPackageRequest" [
    Field.record "package" "package" package,
    Field.count "qty" "qty",
    Field.choice "type" "type" lineKind,
    Field.records "revenue_share" "revenueShare" revenueShare]

def sale : Schema :=
  .make "Sale" [
    Field.text "name" "name",
    Field.choice "discount_type" "discountType" saleKind,
    Field.amount "amount" "amount"]

def recurringUpdate : Schema :=
  .make "UpdateRecurringPaymentRequest" [
    Field.choice "status" "status" recurringTarget]

/-- The checkout interface and the subjects of webhooks. -/
def catalog : Catalog where
  schemas :=
    [price, paymentStatus, paymentMethod, fees, account, customer, product, revenueShare, payment,
      recurringStatus, recurringPayment, package, links, priceDetails, basketLine, basket,
      basketRequest, lineRequest, sale, recurringUpdate]
  choices :=
    [packageKind, expiryUnit, lineKind, saleKind, recurringTarget]

end Storefront.Checkout
