import Storefront.Catalog.Basic

namespace Storefront.Headless

def categoryLayout : Choice :=
  ⟨"Category.DisplayTypeEnum", ["list", "grid"]⟩

def lineKind : Choice :=
  ⟨"BasketPackage.TypeEnum", ["single", "subscription"]⟩

def webstore : Schema :=
  .make "Webstore" [
    Field.count "id" "id",
    Field.text "description" "description",
    Field.text "name" "name",
    Field.text "webstore_url" "webstoreUrl",
    Field.text "currency" "currency",
    Field.text "lang" "lang",
    Field.nullableText "logo" "logo",
    Field.text "platform_type" "platformType",
    Field.date "created_at" "createdAt"]

def package : Schema :=
  .make "Package" [
    Field.count "id" "id",
    Field.text "name" "name",
    Field.text "description" "description",
    Field.nullableText "image" "image",
    Field.text "type" "type",
    Field.anything "category" "category",
    Field.amount "base_price" "basePrice",
    Field.amount "sales_tax" "salesTax",
    Field.amount "total_price" "totalPrice",
    Field.text "currency" "currency",
    Field.amount "discount" "discount",
    Field.flag "disable_quantity" "disableQuantity",
    Field.flag "disable_gifting" "disableGifting",
    Field.nullableDate "expiration_date" "expirationDate",
    Field.date "created_at" "createdAt",
    Field.date "updated_at" "updatedAt"]

def category : Schema :=
  .make "Category" [
    Field.count "id" "id",
    Field.text "name" "name",
    Field.nullableText "slug" "slug",
    Field.anything "parent" "parent",
    Field.text "description" "description",
    Field.records "packages" "packages" package,
    Field.count "order" "order",
    Field.choice "display_type" "displayType" categoryLayout]

def basketLine : Schema :=
  .make "BasketPackage" [
    Field.count "id" "id",
    Field.text "name" "name",
    Field.text "description" "description",
    Field.choice "type" "type" lineKind,
    Field.members "in_basket" "inBasket"]

def links : Schema :=
  .make "BasketLinks" [
    Field.text "checkout" "checkout"]

def coupon : Schema :=
  .make "Coupon" [
    Field.text "coupon_code" "couponCode"]

def giftCard : Schema :=
  .make "GiftCard" [
    Field.text "card_number" "cardNumber",
    Field.anything "balance" "balance"]

def basket : Schema :=
  .make "Basket" [
    Field.text "ident" "ident",
    Field.flag "complete" "complete",
    Field.count "id" "id",
    Field.text "country" "country",
    Field.text "ip" "ip",
    Field.nullableText "username_id" "usernameId",
    Field.nullableText "username" "username",
    Field.text "cancel_url" "cancelUrl",
    Field.nullableText "complete_url" "completeUrl",
    Field.flag "complete_auto_redirect" "completeAutoRedirect",
    Field.amount "base_price" "basePrice",
    Field.amount "sales_tax" "salesTax",
    Field.amount "total_price" "totalPrice",
    Field.text "currency" "currency",
    Field.records "packages" "packages" basketLine,
    Field.records "coupons" "coupons" coupon,
    Field.records "giftcards" "giftcards" giftCard,
    Field.text "creator_code" "creatorCode",
    Field.record "links" "links" links,
    Field.members "custom" "custom"]

/-- A page of the store; it is labelled differently from its name. -/
def page : Schema :=
  ⟨"CMSPage", "CmsPage", none, .ofList [
    Field.count "id" "id",
    Field.date "created_at" "createdAt",
    Field.date "updated_at" "updatedAt",
    Field.count "account_id" "accountId",
    Field.text "title" "title",
    Field.text "slug" "slug",
    Field.flag "private" "_private",
    Field.flag "hidden" "hidden",
    Field.flag "disabled" "disabled",
    Field.flag "sequence" "sequence",
    Field.text "content" "content"]⟩

def catalog : Catalog where
  schemas :=
    [webstore, package, category, basketLine, links, coupon, giftCard, basket, page]
  choices :=
    [categoryLayout, lineKind]

end Storefront.Headless
