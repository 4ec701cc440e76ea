import Mathlib.Data.List.DropRight
import Storefront.Text.Basic

namespace Storefront.Text

def isTight (cs : List Char) : Bool :=
  cs.head?.all (fun c ↦ !isBlank c) && cs.getLast?.all fun c ↦ !isBlank c

variable {cs front inside back mark : List Char}

theorem isTight_append (hf : front.head?.any fun c ↦ !isBlank c)
    (hb : back.getLast?.any fun c ↦ !isBlank c) : isTight (front ++ back) := by
  obtain ⟨c, hc, hfirst⟩ := (Option.any_eq_true _ _).1 hf
  obtain ⟨d, hd, hlast⟩ := (Option.any_eq_true _ _).1 hb
  simp [isTight, hc, hd, hfirst, hlast]

theorem isTight_of_forall (h : ∀ c ∈ cs, isBlank c = false) : isTight cs := by
  have hhead (c : Char) (hc : cs.head? = some c) : (!isBlank c) = true := by
    simp [h c (List.mem_of_head? hc)]
  have hlast (c : Char) (hc : cs.getLast? = some c) : (!isBlank c) = true := by
    simp [h c (List.mem_of_getLast? hc)]
  exact Bool.and_eq_true_iff.2 ⟨(Option.all_eq_true _ _).2 hhead, (Option.all_eq_true _ _).2 hlast⟩

theorem isBlank_of_isTight {c : Char} (h : isTight (c :: cs)) : isBlank c = false := by
  simpa using (Bool.and_eq_true_iff.1 h).1

theorem dropWhile_of_head (h : cs.head?.all fun c ↦ !isBlank c) : cs.dropWhile isBlank = cs := by
  cases cs with
  | nil => rfl
  | cons c rest => exact List.dropWhile_cons_of_neg (by simpa using h)

theorem head?_dropWhile (cs : List Char) : (cs.dropWhile isBlank).head?.all fun c ↦ !isBlank c := by
  have h := List.head?_dropWhile_not isBlank cs
  split at h
  · next hc => simp [hc, h]
  · next hn => simp [hn]

theorem trimEnd_append (hb : ∀ c ∈ back, isBlank c) : trimEnd (cs ++ back) = trimEnd cs := by
  have hr : ∀ c ∈ back.reverse, isBlank c := fun c hc ↦ hb c (List.mem_reverse.1 hc)
  rw [trimEnd, List.reverse_append, List.dropWhile_append_of_pos hr, trimEnd]

theorem trimEnd_of_last (h : cs.getLast?.all fun c ↦ !isBlank c) : trimEnd cs = cs := by
  rw [trimEnd, dropWhile_of_head (by simpa using h), List.reverse_reverse]

theorem trim_eq_of_isTight (hf : ∀ c ∈ front, isBlank c) (hi : isTight inside)
    (hb : ∀ c ∈ back, isBlank c) : trim (front ++ inside ++ back) = inside := by
  obtain ⟨hhead, hlast⟩ := Bool.and_eq_true_iff.1 hi
  rw [trim, trimStart, List.append_assoc, List.dropWhile_append_of_pos hf]
  cases inside with
  | nil =>
    rw [List.nil_append, List.dropWhile_eq_nil_iff.2 hb]
    rfl
  | cons c rest => rw [dropWhile_of_head (by exact hhead), trimEnd_append hb, trimEnd_of_last hlast]

/-- What is cut off is blank, and what stays begins and ends with a character that is not. -/
theorem exists_trim (cs : List Char) : isTight (trim cs) ∧ ∃ front back,
    (∀ c ∈ front, isBlank c) ∧ (∀ c ∈ back, isBlank c) ∧ cs = front ++ trim cs ++ back := by
  have hcut : trim cs ++ (trimStart cs).rtakeWhile isBlank = trimStart cs :=
    List.rdropWhile_append_rtakeWhile
  have hhead : (trim cs).head?.all fun c ↦ !isBlank c := by
    have h : (trimStart cs).head?.all fun c ↦ !isBlank c := head?_dropWhile cs
    rw [← hcut] at h
    cases ht : trim cs with
    | nil => rfl
    | cons c rest =>
      rw [ht] at h
      exact h
  have hlast : (trim cs).getLast?.all fun c ↦ !isBlank c := by
    rw [trim, trimEnd, List.getLast?_reverse]
    exact head?_dropWhile _
  refine ⟨Bool.and_eq_true_iff.2 ⟨hhead, hlast⟩, cs.takeWhile isBlank,
    (trimStart cs).rtakeWhile isBlank, fun _ ↦ List.mem_takeWhile_imp,
    fun _ ↦ List.mem_rtakeWhile_imp, ?_⟩
  rw [List.append_assoc, hcut]
  exact List.takeWhile_append_dropWhile.symm

theorem isTight_trim (cs : List Char) : isTight (trim cs) :=
  (exists_trim cs).1

theorem trim_of_isTight (h : isTight cs) : trim cs = cs := by
  simpa using @trim_eq_of_isTight [] cs [] nofun h nofun

@[simp] theorem trim_trim (cs : List Char) : trim (trim cs) = trim cs :=
  trim_of_isTight (isTight_trim cs)

theorem trim_blanks (hf : ∀ c ∈ front, isBlank c) (hb : ∀ c ∈ back, isBlank c) :
    trim (front ++ cs ++ back) = trim cs := by
  obtain ⟨ht, front', back', hf', hb', hcs⟩ := exists_trim cs
  have hparts := congrArg (front ++ · ++ back) hcs
  have hcut := trim_eq_of_isTight (List.forall_mem_append.2 ⟨hf, hf'⟩) ht
    (List.forall_mem_append.2 ⟨hb', hb⟩)
  rw [hparts]
  simpa using hcut

theorem trim_eq_nil_iff : trim cs = [] ↔ ∀ c ∈ cs, isBlank c := by
  constructor
  · intro h
    obtain ⟨-, front, back, hf, hb, hcs⟩ := exists_trim cs
    rw [h, List.append_nil] at hcs
    rw [hcs]
    exact List.forall_mem_append.2 ⟨hf, hb⟩
  · intro h
    simpa using @trim_eq_of_isTight cs [] [] h rfl nofun

theorem trim_ne_nil (h : cs.getLast?.any fun c ↦ !isBlank c) : trim cs ≠ [] := by
  obtain ⟨c, hc, hblank⟩ := (Option.any_eq_true _ _).1 h
  intro ht
  simp [trim_eq_nil_iff.1 ht c (List.mem_of_getLast? hc)] at hblank

/-- What stands before a blank in a text without blanks around it is not blank. -/
theorem trim_ne_nil_of_isTight {c : Char} (h : isTight (front ++ c :: back)) (hc : isBlank c) :
    trim front ≠ [] := by
  intro ht
  cases front with
  | nil => simp [isBlank_of_isTight h] at hc
  | cons d rest =>
    have hd := trim_eq_nil_iff.1 ht d List.mem_cons_self
    simp [isBlank_of_isTight h] at hd

theorem trim_append_blanks (cs : List Char) (hb : ∀ c ∈ back, isBlank c) :
    trim (cs ++ back) = trim cs := by
  simpa using @trim_blanks cs [] back nofun hb

theorem trim_append_of_blank (h : trim front = []) (cs : List Char) :
    trim (front ++ cs) = trim cs := by
  simpa using @trim_blanks cs front [] (trim_eq_nil_iff.1 h) nofun

theorem getLast?_trim {c : Char} (h : cs.getLast? = some c) (hc : isBlank c = false) :
    (trim cs).getLast? = some c := by
  obtain ⟨-, front, back, hf, hb, hcs⟩ := exists_trim cs
  generalize trim cs = inside at hcs
  subst hcs
  rcases List.eq_nil_or_concat' back with rfl | ⟨_, d, rfl⟩
  · rcases List.eq_nil_or_concat' inside with rfl | ⟨_, d, rfl⟩
    · simp [hf c (List.mem_of_getLast? (by simpa using h))] at hc
    · simpa using h
  · obtain rfl : d = c := by simpa using h
    simp [hb d (by simp)] at hc

/-- A mark at the end of a text that is not blank keeps its place. -/
theorem exists_trim_append (h : trim cs ≠ []) (hm : mark.getLast?.any fun c ↦ !isBlank c) :
    ∃ inner, trim (cs ++ mark) = inner ++ mark ∧ trim inner = trim cs := by
  obtain ⟨ht, front, back, hf, hb, hcs⟩ := exists_trim cs
  have hfirst : (trim cs ++ back).head?.any fun c ↦ !isBlank c := by
    obtain ⟨c, rest, hc⟩ := List.exists_cons_of_ne_nil h
    rw [hc] at ht ⊢
    exact (Bool.and_eq_true_iff.1 ht).1
  refine ⟨trim cs ++ back, ?_, ?_⟩
  · have hparts := congrArg (· ++ mark) hcs
    have hcut := @trim_eq_of_isTight front _ [] hf (isTight_append hfirst hm) nofun
    rw [hparts]
    simpa using hcut
  · rw [trim_append_blanks _ hb, trim_trim]

end Storefront.Text
