import Storefront.Descriptor.Basic
import Storefront.Text.Basic

namespace Storefront.Descriptor

open Text

inductive Wrapper where
  | nullable
  | optional
  | array
  | map
  deriving Repr, DecidableEq

def Wrapper.around : Wrapper → Descriptor → Descriptor
  | .nullable, d => .nullable d
  | .optional, d => .optional d
  | .array, d => .array d
  | .map, d => .map d

def nullMark : List Char := " | null".toList

def undefinedMark : List Char := " | undefined".toList

def arrayFront : List Char := "Array<".toList

def arrayBack : List Char := ">".toList

def mapFront : List Char := "\x7b [key: string]: ".toList

/-- A map may end in any of these ways; the first is the one that is written. -/
def mapBacks : List (List Char) := ["; \x7d".toList, " \x7d".toList, "\x7d".toList]

def dateName : List Char := "Date".toList

def arrayInner? (cs : List Char) : Option (List Char) :=
  (dropFront? arrayFront cs).bind (dropBack? arrayBack)

def mapInner? (cs : List Char) : Option (List Char) :=
  (dropFront? mapFront cs).bind fun rest ↦ mapBacks.findSome? (dropBack? · rest)

def peel? (cs : List Char) : Option (Wrapper × List Char) :=
  (dropBack? nullMark cs).map (.nullable, ·) <|>
  (dropBack? undefinedMark cs).map (.optional, ·) <|>
  (arrayInner? cs).map (.array, ·) <|>
  (mapInner? cs).map (.map, ·)

theorem length_dropFront {front cs rest : List Char} (h : dropFront? front cs = some rest) :
    cs.length = front.length + rest.length := by
  rw [dropFront?_eq_some_iff.1 h, List.length_append]

theorem length_dropBack {back cs rest : List Char} (h : dropBack? back cs = some rest) :
    cs.length = rest.length + back.length := by
  rw [dropBack?_eq_some_iff.1 h, List.length_append]

theorem length_arrayInner {cs inner : List Char} (h : arrayInner? cs = some inner) :
    inner.length < cs.length := by
  obtain ⟨rest, hf, hb⟩ := Option.bind_eq_some_iff.1 h
  have := length_dropFront hf
  have := length_dropBack hb
  have : 0 < arrayFront.length := by decide +kernel
  omega

theorem length_mapInner {cs inner : List Char} (h : mapInner? cs = some inner) :
    inner.length < cs.length := by
  obtain ⟨rest, hf, hb⟩ := Option.bind_eq_some_iff.1 h
  obtain ⟨back, -, hb⟩ := List.exists_of_findSome?_eq_some hb
  have := length_dropFront hf
  have := length_dropBack hb
  have : 0 < mapFront.length := by decide +kernel
  omega

theorem length_peel {cs inner : List Char} {w : Wrapper} (h : peel? cs = some (w, inner)) :
    inner.length < cs.length := by
  have hn : 0 < nullMark.length := by decide +kernel
  have hu : 0 < undefinedMark.length := by decide +kernel
  simp only [peel?, Option.orElse_eq_orElse, Option.orElse_eq_or, Option.or_eq_some_iff,
    Option.map_eq_some_iff, Prod.mk.injEq] at h
  rcases h with ⟨_, h, -, rfl⟩ | ⟨-, ⟨_, h, -, rfl⟩ | ⟨-, ⟨_, h, -, rfl⟩ | ⟨-, _, h, -, rfl⟩⟩⟩
  · have := length_dropBack h
    omega
  · have := length_dropBack h
    omega
  · exact length_arrayInner h
  · exact length_mapInner h

/-- Every text is a descriptor; what is nothing else is a name. -/
def ofChars (cs : List Char) : Descriptor :=
  let inside := trim cs
  match Primitive.ofChars? inside with
  | some p => .primitive p
  | none =>
    match _h : peel? inside with
    | some (w, inner) => w.around (ofChars inner)
    | none => if inside = dateName then .date else .named (String.ofList inside)
termination_by cs.length
decreasing_by exact Nat.lt_of_lt_of_le (length_peel _h) (length_trim_le cs)

def parse (text : String) : Descriptor :=
  ofChars text.toList

def chars : Descriptor → List Char
  | .primitive p => p.name.toList
  | .date => dateName
  | .nullable d => d.chars ++ nullMark
  | .optional d => d.chars ++ undefinedMark
  | .array d => arrayFront ++ d.chars ++ arrayBack
  | .map d => mapFront ++ d.chars ++ "; \x7d".toList
  | .named name => name.toList

def text (d : Descriptor) : String :=
  String.ofList d.chars

end Storefront.Descriptor
