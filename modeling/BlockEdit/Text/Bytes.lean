/-!
# Byte offsets into text

Positions in a document are counted in bytes of its UTF-8 form, while its text is a list of
characters. This file measures a text in bytes and cuts it at a byte offset:

* `byteSize cs` is the length of `cs` in bytes;
* `cutAt? n cs` divides `cs` into its first `n` bytes and the rest, and refuses an offset that lies
  past the end or inside a character;
* `IsBoundary n cs` says that `n` lies between two characters or at an end.

Main statements: `cutAt?_eq_some_iff` and `isSome_cutAt?_iff`.
-/

namespace BlockEdit.Text

/-- The number of bytes of `cs` in UTF-8. -/
def byteSize : List Char → Nat
  | [] => 0
  | c :: cs => c.utf8Size + byteSize cs

/-- The first `n` bytes of a text and the rest of it, where both are whole characters. -/
def cutAt? : Nat → List Char → Option (List Char × List Char)
  | 0, cs => some ([], cs)
  | _ + 1, [] => none
  | n + 1, c :: cs =>
    if c.utf8Size ≤ n + 1 then
      match cutAt? (n + 1 - c.utf8Size) cs with
      | some (front, rest) => some (c :: front, rest)
      | none => none
    else none

/-- The offset `n` lies between two characters of `cs` or at one of its ends. -/
def IsBoundary (n : Nat) (cs : List Char) : Prop :=
  ∃ front rest, cs = front ++ rest ∧ byteSize front = n

@[simp] theorem byteSize_nil : byteSize [] = 0 := rfl

@[simp] theorem byteSize_cons (c : Char) (cs : List Char) :
    byteSize (c :: cs) = c.utf8Size + byteSize cs := rfl

@[simp] theorem byteSize_append (a b : List Char) :
    byteSize (a ++ b) = byteSize a + byteSize b := by
  induction a with
  | nil => simp
  | cons c cs ih => simp [ih, Nat.add_assoc]

theorem byteSize_eq_zero {cs : List Char} : byteSize cs = 0 ↔ cs = [] := by
  cases cs with
  | nil => simp
  | cons c cs =>
    have := c.utf8Size_pos
    simp only [byteSize_cons, reduceCtorEq, iff_false]
    omega

theorem byteSize_pos {cs : List Char} (h : cs ≠ []) : 0 < byteSize cs :=
  Nat.pos_of_ne_zero fun hzero => h (byteSize_eq_zero.1 hzero)

theorem byteSize_eq_utf8ByteSize (cs : List Char) :
    byteSize cs = (String.ofList cs).utf8ByteSize := by
  induction cs with
  | nil => simp [String.ofList_nil]
  | cons c cs ih =>
    rw [String.ofList_cons, String.utf8ByteSize_append, String.utf8ByteSize_singleton,
      byteSize_cons, ih]

@[simp] theorem byteSize_toList (s : String) : byteSize s.toList = s.utf8ByteSize := by
  rw [byteSize_eq_utf8ByteSize, String.ofList_toList]

theorem cutAt?_append (a b : List Char) : cutAt? (byteSize a) (a ++ b) = some (a, b) := by
  induction a with
  | nil => cases b <;> rfl
  | cons c cs ih =>
    have hc := c.utf8Size_pos
    obtain ⟨n, hn⟩ : ∃ n, c.utf8Size + byteSize cs = n + 1 :=
      ⟨c.utf8Size + byteSize cs - 1, by omega⟩
    have hle : c.utf8Size ≤ n + 1 := by omega
    have hsub : n + 1 - c.utf8Size = byteSize cs := by omega
    simp [hn, cutAt?, hle, hsub, ih]

theorem cutAt?_eq_some {n : Nat} {cs a b : List Char} (h : cutAt? n cs = some (a, b)) :
    cs = a ++ b ∧ byteSize a = n := by
  fun_induction cutAt? n cs generalizing a b with
  | case1 cs => simp_all
  | case2 n => simp at h
  | case3 n c cs hle front rest hcut ih =>
    obtain ⟨rfl, hb⟩ := ih hcut
    simp only [Option.some.injEq, Prod.mk.injEq] at h
    obtain ⟨rfl, rfl⟩ := h
    exact ⟨rfl, by simp only [byteSize_cons]; omega⟩
  | case4 => simp at h
  | case5 => simp at h

/-- A cut at `n` exists exactly as the two halves that the offset says. -/
theorem cutAt?_eq_some_iff {n : Nat} {cs a b : List Char} :
    cutAt? n cs = some (a, b) ↔ cs = a ++ b ∧ byteSize a = n :=
  ⟨cutAt?_eq_some, fun ⟨h, hn⟩ => by rw [h, ← hn, cutAt?_append]⟩

theorem isSome_cutAt?_iff {n : Nat} {cs : List Char} :
    (cutAt? n cs).isSome ↔ IsBoundary n cs := by
  constructor
  · intro h
    obtain ⟨⟨a, b⟩, hab⟩ := Option.isSome_iff_exists.1 h
    exact ⟨a, b, cutAt?_eq_some hab⟩
  · rintro ⟨a, b, h, hn⟩
    rw [cutAt?_eq_some_iff.2 ⟨h, hn⟩]
    rfl

end BlockEdit.Text
