import Storefront.Proofs.Entries
import Storefront.Proofs.Text.Casing
import Storefront.Proofs.Text.Trim
import Storefront.Webhook.Headers

namespace Storefront.Webhook.Headers

open Text

def capital (c : Char) : Char :=
  if c = '-' then '_' else c.toUpper

def dashed (c : Char) : Char :=
  if c = '_' then '-' else c.toLower

theorem toList_normalName (name : String) : (normalName name).toList =
    (dropFront? "HTTP_".toList ((trim name.toList).map capital)).getD
      ((trim name.toList).map capital) :=
  String.toList_ofList

/-- A name that is its own normal form: no blanks around it, capitals and low lines, and no `HTTP_`
in front. -/
structure IsNormal (cs : List Char) : Prop where
  tight : isTight cs
  capital : ∀ c ∈ cs, capital c = c
  bare : dropFront? "HTTP_".toList cs = none

variable {cs : List Char} {name w : String}

theorem trim_eq_self_of_length_le (h : cs.length ≤ (trim cs).length) : trim cs = cs := by
  obtain ⟨-, front, back, -, -, hcs⟩ := exists_trim cs
  have hl := congrArg List.length hcs
  simp only [List.length_append] at hl
  have hfront : front = [] := List.eq_nil_of_length_eq_zero (by omega)
  have hback : back = [] := List.eq_nil_of_length_eq_zero (by omega)
  rw [hfront, hback, List.nil_append, List.append_nil] at hcs
  exact hcs.symm

theorem isNormal_of_normalName_eq (h : normalName w = w) : IsNormal w.toList := by
  have hl := toList_normalName w
  rw [h] at hl
  have hle := length_trim_le w.toList
  cases hd : dropFront? "HTTP_".toList ((trim w.toList).map capital) with
  | some rest =>
    -- what has lost its front is shorter than the name
    rw [hd, Option.getD_some] at hl
    have hlen := congrArg List.length (dropFront?_eq_some_iff.1 hd)
    rw [List.length_map, List.length_append, ← hl] at hlen
    have hfive : "HTTP_".toList.length = 5 := rfl
    omega
  | none =>
    rw [hd, Option.getD_none] at hl
    have htrim : trim w.toList = w.toList := by
      apply trim_eq_self_of_length_le
      have hlen := congrArg List.length hl
      rw [List.length_map] at hlen
      omega
    rw [htrim] at hl hd
    refine ⟨htrim ▸ isTight_trim w.toList, ?_, by rwa [← hl] at hd⟩
    exact Entries.map_eq_self_iff.1 hl.symm

theorem IsNormal.normalName_eq (h : IsNormal cs)
    (hw : (trim name.toList).map Headers.capital = cs) :
    (normalName name).toList = cs := by
  rw [toList_normalName, hw, h.bare, Option.getD_none]

theorem isBlank_dashed {c : Char} (h : isBlank c = false) : isBlank (dashed c) = false := by
  rw [dashed]
  split
  · decide
  · exact isBlank_toLower h

theorem capital_dashed {c : Char} (h : capital c = c) : capital (dashed c) = c := by
  by_cases hlow : c = '_'
  · subst hlow
    decide
  have hdash : c ≠ '-' := by
    rintro rfl
    exact absurd h (by decide)
  rw [capital, if_neg hdash] at h
  have hlower : c.toLower ≠ '-' := by
    intro he
    have hupper := toUpper_toLower c
    rw [he, h] at hupper
    exact hdash hupper.symm
  rw [dashed, if_neg hlow, capital, if_neg hlower, toUpper_toLower, h]

theorem IsNormal.map_capital (h : IsNormal cs) : cs.map Headers.capital = cs :=
  Entries.map_eq_self_iff.2 h.capital

theorem isTight_map {f : Char → Char} (hf : ∀ c, isBlank c = false → isBlank (f c) = false)
    (h : isTight cs) : isTight (cs.map f) := by
  simp only [isTight, Bool.and_eq_true, List.head?_map, List.getLast?_map, Option.all_map,
    Option.all_eq_true, Bool.not_eq_true'] at h ⊢
  exact ⟨fun c hc ↦ hf c (h.1 c hc), fun c hc ↦ hf c (h.2 c hc)⟩

theorem IsNormal.normalName_dashedName (h : IsNormal w.toList) :
    normalName (dashedName w) = w := by
  have htrim : trim (w.toList.map dashed) = w.toList.map dashed :=
    trim_of_isTight (isTight_map (fun _ ↦ isBlank_dashed) h.tight)
  apply String.toList_inj.1
  apply h.normalName_eq
  rw [show (dashedName w).toList = w.toList.map dashed from String.toList_ofList, htrim,
    List.map_map]
  exact Entries.map_eq_self_iff.2 fun c hc ↦ capital_dashed (h.capital c hc)

theorem IsNormal.normalName_http (h : IsNormal w.toList) : normalName ("HTTP_" ++ w) = w := by
  have htight : isTight ("HTTP_".toList ++ w.toList) := by
    have hlast := (Bool.and_eq_true_iff.1 h.tight).2
    cases hd : w.toList.getLast? with
    | none =>
      rw [List.getLast?_eq_none_iff.1 hd]
      decide
    | some d =>
      rw [hd] at hlast
      exact isTight_append (by decide) (by rw [hd]; exact hlast)
  have htrim : trim ("HTTP_" ++ w).toList = "HTTP_".toList ++ w.toList := by
    rw [String.toList_append, trim_of_isTight htight]
  have hfront : "HTTP_".toList.map Headers.capital = "HTTP_".toList := by decide
  apply String.toList_inj.1
  rw [toList_normalName, htrim, List.map_append, hfront, h.map_capital,
    dropFront?_eq_some_iff.2 rfl, Option.getD_some]

/-- All spellings of a name have the same normal form. -/
theorem normalName_of_mem_spellings (h : normalName (normalName name) = normalName name)
    {key : String} (hkey : key ∈ spellings name) : normalName key = normalName name := by
  have hnormal := isNormal_of_normalName_eq h
  simp only [spellings, List.mem_cons, List.not_mem_nil, or_false] at hkey
  rcases hkey with rfl | rfl | rfl | rfl
  · rfl
  · exact hnormal.normalName_dashedName
  · exact h
  · exact hnormal.normalName_http

end Storefront.Webhook.Headers
