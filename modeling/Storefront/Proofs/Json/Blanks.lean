import Mathlib.Data.List.Forall2
import Mathlib.Data.List.Induction
import Storefront.Proofs.Json.Spaced
import Storefront.Proofs.Json.Spelling

namespace Storefront.Json

/-- Where a character of a text stands: outside of strings, in one, or after a backslash there. -/
inductive Zone where
  | outside
  | inside
  | escaped
  deriving DecidableEq

def Zone.next (c : Char) : Zone → Zone
  | .outside => if c = '"' then .inside else .outside
  | .inside => if c = '"' then .outside else if c = '\\' then .escaped else .inside
  | .escaped => .inside

def dropBlanks : Zone → List Char → List Char
  | _, [] => []
  | zone, c :: cs =>
    if zone = .outside ∧ isSpace c then dropBlanks zone cs
    else c :: dropBlanks (zone.next c) cs

/-- The text without the blanks outside of its strings, every other character kept in place. -/
def withoutBlanks (text : String) : String :=
  String.ofList (dropBlanks .outside text.toList)

def Keeps (zone : Zone) (cs : List Char) (zone' : Zone) : Prop :=
  ∀ rest, dropBlanks zone (cs ++ rest) = cs ++ dropBlanks zone' rest

variable {zone zone' zone'' : Zone} {c : Char} {cs ds token glyph blanks : List Char}

namespace Keeps

theorem nil (zone : Zone) : Keeps zone [] zone :=
  fun _ ↦ rfl

theorem one (h : zone = .outside → isSpace c = false) : Keeps zone [c] (zone.next c) := by
  intro rest
  have hc : ¬ (zone = .outside ∧ isSpace c) := by
    intro hb
    rw [h hb.1] at hb
    cases hb.2
  rw [List.singleton_append, dropBlanks, if_neg hc]
  rfl

theorem trans (h : Keeps zone cs zone') (h' : Keeps zone' ds zone'') :
    Keeps zone (cs ++ ds) zone'' := by
  intro rest
  rw [List.append_assoc, h, h', List.append_assoc]

theorem cons (h : Keeps zone [c] zone') (h' : Keeps zone' cs zone'') :
    Keeps zone (c :: cs) zone'' :=
  h.trans h'

theorem of_solid (h : ∀ c ∈ cs, Solid c) : Keeps .outside cs .outside := by
  induction cs with
  | nil => exact .nil .outside
  | cons c cs ih =>
    obtain ⟨hc, hcs⟩ := List.forall_mem_cons.1 h
    have hone : Keeps .outside [c] (Zone.outside.next c) := .one fun _ ↦ hc.1
    rw [Zone.next, if_neg hc.2] at hone
    exact hone.cons (ih hcs)

theorem inside (hq : c ≠ '"') (hs : c ≠ '\\') : Keeps .inside [c] .inside := by
  have hone : Keeps .inside [c] (Zone.inside.next c) := .one nofun
  rwa [Zone.next, if_neg hq, if_neg hs] at hone

theorem escape (c : Char) : Keeps .inside ['\\', c] .inside :=
  cons (.one nofun) (.one nofun)

end Keeps

theorem dropBlanks_blanks (hb : ∀ c ∈ blanks, isSpace c) (rest : List Char) :
    dropBlanks .outside (blanks ++ rest) = dropBlanks .outside rest := by
  induction blanks with
  | nil => rfl
  | cons c cs ih =>
    obtain ⟨hc, hcs⟩ := List.forall_mem_cons.1 hb
    rw [List.cons_append, dropBlanks, if_pos ⟨rfl, hc⟩, ih hcs]

theorem keeps_hexDigits {digits : List Char} {n : Nat} (h : hexNumber? digits = some n) :
    Keeps .inside digits .inside := by
  induction digits using List.reverseRecOn generalizing n with
  | nil => exact .nil .inside
  | append_singleton digits c ih =>
    obtain ⟨m, k, hm, hk, -⟩ := of_hexNumber?_concat h
    have hne : ∀ d : Char, Text.hexValue? d = none → c ≠ d := by
      intro d hd he
      rw [he, hd] at hk
      cases hk
    exact (ih hm).trans (.inside (hne _ rfl) (hne _ rfl))

theorem Glyph.keeps (h : Glyph glyph c) : Keeps .inside glyph .inside := by
  cases h with
  | plain hq hs => exact .inside hq hs
  | short => exact .escape _
  | code _ hd => exact (Keeps.escape 'u').trans (keeps_hexDigits hd)
  | pair _ _ hd hd' =>
    have hsecond : Keeps .inside _ .inside := (Keeps.escape 'u').trans (keeps_hexDigits hd')
    exact (Keeps.escape 'u').trans ((keeps_hexDigits hd).trans hsecond)

theorem Literal.keeps (h : Literal cs ds) : Keeps .inside cs .inside := by
  induction h with
  | nil => exact .nil .inside
  | snoc _ hg ih => exact ih.trans hg.keeps

theorem solid_of_mem_fixedTokens (h : token ∈ fixedTokens) : ∀ c ∈ token, Solid c := by
  have hall : fixedTokens.all (·.all fun c ↦ !isSpace c && c != '"') := by decide
  intro c hc
  have hsolid := List.all_eq_true.1 (List.all_eq_true.1 hall token h) c hc
  simpa [Solid] using hsolid

theorem Spells.keeps {printed : List Char} (h : Spells token printed) :
    Keeps .outside token .outside := by
  cases h with
  | fixed hm => exact .of_solid (solid_of_mem_fixedTokens hm)
  | number hs _ hr => exact .of_solid (solid_of_reprint hs hr)
  | string hl =>
    have hopen : Keeps .outside ['"'] .inside := .one fun _ ↦ rfl
    have hclose : Keeps .inside ['"'] .outside := .one nofun
    exact hopen.cons (hl.keeps.trans hclose)

/-- What is left of a text is its tokens, with nothing between them. -/
theorem dropBlanks_of_spaced {ts us : List (List Char)} (hs : Spaced ts cs)
    (h : List.Forall₂ Spells ts us) : dropBlanks .outside cs = ts.flatten := by
  induction h generalizing cs with
  | nil =>
    have hd := dropBlanks_blanks hs.of_nil []
    rwa [List.append_nil] at hd
  | cons ht _ ih =>
    obtain ⟨blanks, rest, rfl, hb, hr⟩ := hs.of_cons
    rw [dropBlanks_blanks hb, ht.keeps, ih hr, List.flatten_cons]

end Storefront.Json
