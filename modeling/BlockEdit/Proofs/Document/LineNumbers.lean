import BlockEdit.Proofs.Document.Spans
import BlockEdit.Proofs.Text.Encoding

/-!
# The lines that a span touches

A document is cut behind each of its line feeds (`wholeLines`), so it has one line more than line
feeds, and the last one may be empty. The number of the line at a byte offset is told by the line
feeds in front of it, which are those bytes that have the value of a line feed, since no other
character has such a byte (`lineAt_eq`).

* `lineStop cs k`: the offset at which the `k`-th line ends, where the next one begins;
* `lineStop_lineFeedsBefore_le`, `lt_lineStop_lineFeedsBefore`: the line at an offset holds the byte
  that stands there;
* `slice?_lineSpan`: the text from one line up to another one;
* `lineAt_append`: what stands in front of a document adds its line feeds;
* `lines_exact`: what the lines of a span are.
-/

namespace BlockEdit

namespace Text

variable {c : Char} {i j k n : Nat} {cs ds : List Char}

/-! ### The lines of a text -/

/-- The lines of a text with the line feeds that end them. The last line has none, and it is empty
where a line feed is the last character. -/
def wholeLines : List Char → List (List Char)
  | [] => [[]]
  | c :: cs => if c = '\n' then [c] :: wholeLines cs else (wholeLines cs).modifyHead (c :: ·)

/-- A line that ends with its only line feed. -/
def IsWholeLine (line : List Char) : Prop := ∃ body, '\n' ∉ body ∧ line = body ++ ['\n']

/-- The offset at which the `k`-th line of a text ends. -/
def lineStop (cs : List Char) (k : Nat) : Nat := byteSize ((wholeLines cs).take k).flatten

theorem wholeLines_ne_nil (cs : List Char) : wholeLines cs ≠ [] := by
  cases cs with
  | nil => exact List.cons_ne_nil _ _
  | cons c cs =>
    rw [wholeLines]
    split
    · exact List.cons_ne_nil _ _
    · rw [Ne, List.modifyHead_eq_nil_iff]
      exact wholeLines_ne_nil cs

theorem flatten_modifyHead {ls : List (List Char)} (h : ls ≠ []) (c : Char) :
    (ls.modifyHead (c :: ·)).flatten = c :: ls.flatten := by
  obtain ⟨l, ls, rfl⟩ := List.exists_cons_of_ne_nil h
  rfl

/-- The lines of a text put together are the text. -/
theorem flatten_wholeLines (cs : List Char) : (wholeLines cs).flatten = cs := by
  induction cs with
  | nil => rfl
  | cons c cs ih =>
    rw [wholeLines]
    split
    · rw [List.flatten_cons, ih, List.singleton_append]
    · rw [flatten_modifyHead (wholeLines_ne_nil cs), ih]

theorem length_wholeLines (cs : List Char) : (wholeLines cs).length = lineFeeds cs + 1 := by
  induction cs with
  | nil => rfl
  | cons c cs ih =>
    rw [wholeLines, lineFeeds, List.count_cons]
    by_cases hc : c = '\n'
    · rw [if_pos hc, List.length_cons, ih, lineFeeds, hc, beq_self_eq_true, if_pos rfl]
    · rw [if_neg hc, List.length_modifyHead, ih, lineFeeds, beq_eq_false_iff_ne.2 hc]
      rfl

/-! ### Where lines end -/

theorem lineStop_cons_lineFeed (cs : List Char) (k : Nat) :
    lineStop ('\n' :: cs) (k + 1) = 1 + lineStop cs k := by
  rw [lineStop, wholeLines, if_pos rfl, List.take_succ_cons, List.flatten_cons, byteSize_append]
  rfl

theorem lineStop_cons (hc : c ≠ '\n') (cs : List Char) (k : Nat) :
    lineStop (c :: cs) (k + 1) = c.utf8Size + lineStop cs (k + 1) := by
  obtain ⟨l, ls, hls⟩ := List.exists_cons_of_ne_nil (wholeLines_ne_nil cs)
  rw [lineStop, lineStop, wholeLines, if_neg hc, hls]
  simp

theorem lineStop_mono (cs : List Char) (h : i ≤ j) : lineStop cs i ≤ lineStop cs j := by
  obtain ⟨d, rfl⟩ := Nat.exists_eq_add_of_le h
  rw [lineStop, lineStop, List.take_add, List.flatten_append, byteSize_append]
  exact Nat.le_add_right _ _

/-- The line that a line feed ends goes up to it. -/
theorem lineStop_lineFeeds (cs ds : List Char) :
    lineStop (cs ++ '\n' :: ds) (lineFeeds cs + 1) = byteSize cs + 1 := by
  induction cs with
  | nil => rw [List.nil_append, lineFeeds, List.count_nil, lineStop_cons_lineFeed]; rfl
  | cons c cs ih =>
    rw [List.cons_append, byteSize_cons, Nat.add_assoc, ← ih]
    by_cases hc : c = '\n'
    · rw [hc, lineFeeds, List.count_cons_self, lineStop_cons_lineFeed]
      rfl
    · rw [lineStop_cons hc, lineFeeds, List.count_cons_of_ne hc, lineFeeds]

/-- Lines that end with line feeds have one line feed each. -/
theorem lineFeeds_flatten {ls : List (List Char)} (h : ∀ l ∈ ls, IsWholeLine l) :
    lineFeeds ls.flatten = ls.length := by
  induction ls with
  | nil => rfl
  | cons l ls ih =>
    obtain ⟨⟨body, hbody, rfl⟩, hls⟩ := List.forall_mem_cons.1 h
    have hone : lineFeeds (body ++ ['\n']) = 1 := by
      rw [lineFeeds_append, lineFeeds, List.count_eq_zero.2 hbody]
      rfl
    rw [List.flatten_cons, lineFeeds_append, hone, ih hls, List.length_cons, Nat.add_comm]

/-- A text is cut behind each of its line feeds. -/
theorem exists_wholeLines (cs : List Char) : ∃ ended last, wholeLines cs = ended ++ [last] ∧
    cs = ended.flatten ++ last ∧ (∀ l ∈ ended, IsWholeLine l) ∧ '\n' ∉ last := by
  induction cs with
  | nil => exact ⟨[], [], rfl, rfl, by simp, by simp⟩
  | cons c cs ih =>
    obtain ⟨ended, last, hlines, hcs, hended, hlast⟩ := ih
    rw [wholeLines, hlines]
    by_cases hc : c = '\n'
    · refine ⟨[c] :: ended, last, by rw [if_pos hc, List.cons_append], ?_, ?_, hlast⟩
      · rw [List.flatten_cons, List.append_assoc, ← hcs, List.singleton_append]
      · exact List.forall_mem_cons.2 ⟨⟨[], by simp, by rw [hc, List.nil_append]⟩, hended⟩
    · rw [if_neg hc]
      have hmem : ∀ body, '\n' ∉ body → '\n' ∉ c :: body := fun body hbody =>
        List.not_mem_cons_of_ne_of_not_mem (Ne.symm hc) hbody
      cases ended with
      | nil => exact ⟨[], c :: last, rfl, by rw [hcs]; rfl, by simp, hmem last hlast⟩
      | cons l ended =>
        obtain ⟨⟨body, hbody, rfl⟩, hrest⟩ := List.forall_mem_cons.1 hended
        refine ⟨(c :: body ++ ['\n']) :: ended, last, rfl, by rw [hcs]; rfl, ?_, hlast⟩
        exact List.forall_mem_cons.2 ⟨⟨c :: body, hmem body hbody, rfl⟩, hrest⟩

/-! ### Bytes that are line feeds -/

theorem lineFeed_mem_iff (c : Char) : '\n'.toUInt8 ∈ String.utf8EncodeChar c ↔ c = '\n' := by
  constructor
  · intro h
    obtain ⟨b, bs, hc, -, hbs⟩ := exists_utf8EncodeChar c
    have hfirst : '\n'.toUInt8.IsUTF8FirstByte := by decide
    rw [hc] at h
    -- It is not one of the bytes that go on, so the character begins with the bytes of another one.
    obtain rfl : '\n'.toUInt8 = b := (List.mem_cons.1 h).resolve_right fun hmem =>
      hbs _ hmem hfirst
    have hpre : encode ['\n'] <+: encode [c] := by
      rw [encode_cons c, hc]
      exact List.prefix_append ['\n'.toUInt8] _
    obtain ⟨rest, hrest⟩ := encode_prefix_iff.1 hpre
    exact (List.cons.inj hrest).1.symm
  · rintro rfl
    decide

end Text

namespace Span

open Text (byteSize lineStop lineFeeds wholeLines)

variable {n : Nat} {cs : List Char} {document : String} {span : Span}

/-! ### Line feeds in front of an offset -/

theorem lineFeedsBefore_append (n : Nat) (cs ds : List Char) :
    lineFeedsBefore (byteSize cs + n) (cs ++ ds) = lineFeeds cs + lineFeedsBefore n ds := by
  induction cs with
  | nil => simp [lineFeeds]
  | cons c cs ih =>
    have hc := c.utf8Size_pos
    obtain ⟨m, hm⟩ : ∃ m, byteSize (c :: cs) + n = m + 1 :=
      ⟨byteSize (c :: cs) + n - 1, by rw [Text.byteSize_cons]; omega⟩
    have hrest : m + 1 - c.utf8Size = byteSize cs + n := by
      rw [← hm, Text.byteSize_cons]
      omega
    rw [List.cons_append, hm, lineFeedsBefore, hrest, ih, lineFeeds, lineFeeds, List.count_cons]
    simp only [beq_iff_eq]
    omega

theorem lineFeedsBefore_byteSize (cs ds : List Char) :
    lineFeedsBefore (byteSize cs) (cs ++ ds) = lineFeeds cs := by
  have happend := lineFeedsBefore_append 0 cs ds
  rwa [lineFeedsBefore, Nat.add_zero, Nat.add_zero] at happend

theorem lineFeedsBefore_le (n : Nat) (cs : List Char) : lineFeedsBefore n cs ≤ lineFeeds cs := by
  fun_induction lineFeedsBefore n cs with
  | case1 => exact Nat.zero_le _
  | case2 => exact Nat.zero_le _
  | case3 n c cs ih =>
    rw [lineFeeds, List.count_cons]
    simp only [beq_iff_eq]
    unfold lineFeeds at ih
    omega

/-- The line feeds in front of an offset are bytes. -/
theorem lineFeedsBefore_eq (n : Nat) (cs : List Char) :
    lineFeedsBefore n cs = ((Text.encode cs).take n).count '\n'.toUInt8 := by
  fun_induction lineFeedsBefore n cs with
  | case1 => simp
  | case2 => simp
  | case3 n c cs ih =>
    have hhead : ((String.utf8EncodeChar c).take (n + 1)).count '\n'.toUInt8 =
        if c = '\n' then 1 else 0 := by
      split
      · next hc =>
        have hbyte : String.utf8EncodeChar '\n' = ['\n'.toUInt8] := by decide
        rw [hc, hbyte, List.take_succ_cons, List.take_nil]
        rfl
      · next hc =>
        exact List.count_eq_zero.2 fun h =>
          hc ((Text.lineFeed_mem_iff c).1 (List.mem_of_mem_take h))
    rw [Text.encode_cons, List.take_append, List.count_append, hhead, String.length_utf8EncodeChar,
      ih]

/-- The number of a line tells how many bytes in front of an offset are line feeds. -/
theorem lineAt_eq (document : String) (n : Nat) :
    lineAt document n = ((Text.bytes document).take n).count '\n'.toUInt8 + 1 := by
  rw [lineAt, lineFeedsBefore_eq, Text.bytes_eq]

/-- The line at an offset does not begin behind it. -/
theorem lineStop_lineFeedsBefore_le (n : Nat) (cs : List Char) :
    lineStop cs (lineFeedsBefore n cs) ≤ n := by
  fun_induction lineFeedsBefore n cs with
  | case1 cs => exact Nat.le_refl 0
  | case2 n => exact Nat.zero_le _
  | case3 n c cs ih =>
    have hpos := c.utf8Size_pos
    by_cases hc : c = '\n'
    · subst hc
      have hsize : '\n'.utf8Size = 1 := rfl
      rw [if_pos rfl, Nat.add_comm 1, Text.lineStop_cons_lineFeed]
      omega
    · rw [if_neg hc, Nat.zero_add]
      cases hk : lineFeedsBefore (n + 1 - c.utf8Size) cs with
      | zero => exact Nat.zero_le _
      | succ k =>
        -- There is a line feed behind the character, so the offset does not lie inside it.
        have hlt : c.utf8Size < n + 1 := by
          by_contra hle
          rw [Nat.sub_eq_zero_of_le (not_lt.1 hle), lineFeedsBefore] at hk
          cases hk
        rw [hk] at ih
        rw [Text.lineStop_cons hc]
        omega

/-- The line at an offset ends behind the byte that stands there. -/
theorem lt_lineStop_lineFeedsBefore (h : n < byteSize cs) :
    n < lineStop cs (lineFeedsBefore n cs + 1) := by
  fun_induction lineFeedsBefore n cs with
  | case1 cs =>
    cases cs with
    | nil => exact h
    | cons c cs =>
      by_cases hc : c = '\n'
      · rw [hc, Text.lineStop_cons_lineFeed]
        exact Nat.lt_add_right _ Nat.zero_lt_one
      · rw [Text.lineStop_cons hc]
        exact Nat.lt_add_right _ c.utf8Size_pos
  | case2 n => cases h
  | case3 n c cs ih =>
    rw [Text.byteSize_cons] at h
    by_cases hc : c = '\n'
    · subst hc
      have hsize : '\n'.utf8Size = 1 := rfl
      have hrest := ih (by omega)
      rw [if_pos rfl, Nat.add_comm 1, Text.lineStop_cons_lineFeed]
      omega
    · rw [if_neg hc, Nat.zero_add, Text.lineStop_cons hc]
      by_cases hlt : n + 1 - c.utf8Size < byteSize cs
      · have hrest := ih hlt
        omega
      · omega

/-! ### Lines of a document -/

/-- The byte at the offset `n` stands in the line with the number `k`. -/
def IsOnLine (document : String) (k n : Nat) : Prop :=
  lineStop document.toList (k - 1) ≤ n ∧ n < lineStop document.toList k

/-- The bytes from the line `i` up to the line `j`, line feeds included. -/
def lineSpan (document : String) (i j : Nat) : Span :=
  ⟨lineStop document.toList (i - 1), lineStop document.toList j⟩

/-- What stands between two lines is the lines put together. -/
theorem slice?_lineSpan (document : String) {i j : Nat} (h : i - 1 ≤ j) :
    (lineSpan document i j).slice? document =
      some (String.ofList (((wholeLines document.toList).take j).drop (i - 1)).flatten) := by
  have htake := List.take_append_drop (i - 1) ((wholeLines document.toList).take j)
  rw [List.take_take, Nat.min_eq_left h] at htake
  have hsplit : document.toList = ((wholeLines document.toList).take (i - 1)).flatten ++
      ((((wholeLines document.toList).take j).drop (i - 1)).flatten ++
        ((wholeLines document.toList).drop j).flatten) := by
    rw [← List.append_assoc, ← List.flatten_append, htake, ← List.flatten_append,
      List.take_append_drop, Text.flatten_wholeLines]
  have hslice := slice?_of_split hsplit
  rwa [← List.flatten_append, htake] at hslice

theorem isOnLine_lineAt (h : n < document.utf8ByteSize) :
    IsOnLine document (lineAt document n) n := by
  rw [← Text.byteSize_toList] at h
  exact ⟨lineStop_lineFeedsBefore_le n _, lt_lineStop_lineFeedsBefore h⟩

/-- Of two bytes, the earlier one stands in the earlier line. -/
theorem IsOnLine.le {i j m : Nat} (h : IsOnLine document i m) (h' : IsOnLine document j n)
    (hle : m ≤ n) : i ≤ j := by
  by_contra hlt
  have hlines := Text.lineStop_mono document.toList (by omega : j ≤ i - 1)
  have hstart := h.1
  have hstop := h'.2
  omega

/-- Lines hold a span just when they go from the line of its first byte, or an earlier one, to the
line of its last byte, or a later one. -/
theorem lineSpan_holds_iff {first last : Nat} (hlt : span.start < span.stop)
    (hfirst : IsOnLine document first span.start) (hlast : IsOnLine document last (span.stop - 1))
    (i j : Nat) :
    (lineSpan document i j).start ≤ span.start ∧ span.stop ≤ (lineSpan document i j).stop ↔
      i ≤ first ∧ last ≤ j := by
  have hmono := fun {i j : Nat} (h : i ≤ j) => Text.lineStop_mono document.toList h
  obtain ⟨hbegin, hpast⟩ := hfirst
  obtain ⟨hbefore, hend⟩ := hlast
  simp only [lineSpan]
  constructor
  · rintro ⟨hstart, hstop⟩
    constructor
    · by_contra hi
      have hlines := hmono (by omega : first ≤ i - 1)
      omega
    · by_contra hj
      have hlines := hmono (by omega : j ≤ last - 1)
      omega
  · rintro ⟨hi, hj⟩
    have hstart := hmono (by omega : i - 1 ≤ first - 1)
    have hstop := hmono hj
    omega

/-- The line of a line feed ends behind it. -/
theorem lineStop_lineAt {front rest : List Char} (h : document.toList = front ++ '\n' :: rest) :
    lineStop document.toList (lineAt document (byteSize front)) = byteSize front + 1 := by
  rw [lineAt, h, lineFeedsBefore_byteSize, Text.lineStop_lineFeeds]

/-! ### The lines of a span -/

theorem lines_of_isEmpty (document : String) (h : span.isEmpty = true) :
    span.lines document = (lineAt document span.start, lineAt document span.start) := by
  simp only [lines, h, if_true]

theorem lines_of_not_isEmpty (document : String) (h : span.isEmpty = false) :
    span.lines document = (lineAt document span.start, lineAt document (span.stop - 1)) := by
  simp only [lines, h, Bool.false_eq_true, if_false]

theorem isEmpty_eq_false_iff : span.isEmpty = false ↔ span.start < span.stop := by
  rw [isEmpty, beq_eq_false_iff_ne, size]
  omega

theorem lineAt_append (front document : String) (n : Nat) :
    lineAt (front ++ document) (front.utf8ByteSize + n) =
      lineAt document n + lineFeeds front.toList := by
  rw [lineAt, lineAt, String.toList_append, ← Text.byteSize_toList, lineFeedsBefore_append]
  omega

/-- What stands in front of a document adds its line feeds to the numbers of the lines. -/
theorem lines_append (front document : String) (span : Span) :
    lines ⟨front.utf8ByteSize + span.start, front.utf8ByteSize + span.stop⟩ (front ++ document) =
      ((span.lines document).1 + lineFeeds front.toList,
        (span.lines document).2 + lineFeeds front.toList) := by
  cases h : span.isEmpty with
  | true =>
    have hmoved : isEmpty ⟨front.utf8ByteSize + span.start, front.utf8ByteSize + span.stop⟩ =
        true := by
      simp only [isEmpty, size, Nat.add_sub_add_left] at h ⊢
      exact h
    rw [lines_of_isEmpty document h, lines_of_isEmpty _ hmoved, lineAt_append]
  | false =>
    rw [isEmpty_eq_false_iff] at h
    have hmoved : isEmpty ⟨front.utf8ByteSize + span.start, front.utf8ByteSize + span.stop⟩ =
        false := isEmpty_eq_false_iff.2 (Nat.add_lt_add_left h _)
    rw [lines_of_not_isEmpty document (isEmpty_eq_false_iff.2 h), lines_of_not_isEmpty _ hmoved,
      lineAt_append, Nat.add_sub_assoc (by omega), lineAt_append]

/-- A document is cut into lines behind each of its line feeds. The lines of a span that fits it,
and covers some byte, are those in which its first and its last byte stand. So they are the least
lines that hold the span, and a span that ends with a line feed does not reach the next line. A span
without bytes has the line whose number is told by the line feeds in front of it, among the bytes of
the document. Lines in front of the document that end with line feeds add their number. -/
theorem lines_exact (document : String) (span : Span) (hfits : span.fits document = true) :
    let first := (span.lines document).1
    let last := (span.lines document).2
    (∃ ended final, wholeLines document.toList = ended ++ [final] ∧
      document.toList = ended.flatten ++ final ∧ (∀ l ∈ ended, Text.IsWholeLine l) ∧
      '\n' ∉ final ∧ ended.length = lineFeeds document.toList) ∧
    (span.isEmpty = false →
      first ≤ last ∧ 1 ≤ first ∧ last ≤ 1 + lineFeeds document.toList ∧
      IsOnLine document first span.start ∧ IsOnLine document last (span.stop - 1) ∧
      (∀ i j, (lineSpan document i j).start ≤ span.start ∧
        span.stop ≤ (lineSpan document i j).stop ↔ i ≤ first ∧ last ≤ j) ∧
      (lineSpan document first last).slice? document =
        some (String.ofList (((wholeLines document.toList).take last).drop (first - 1)).flatten) ∧
      ∀ text, span.slice? document = some text → text.toList.getLast? = some '\n' →
        (lineSpan document first last).stop = span.stop) ∧
    (span.isEmpty = true → first = last ∧
      first = 1 + ((Text.bytes document).take span.start).count '\n'.toUInt8) ∧
    ∀ complete : List (List Char), (∀ l ∈ complete, Text.IsWholeLine l) →
      let front := String.ofList complete.flatten
      lines ⟨front.utf8ByteSize + span.start, front.utf8ByteSize + span.stop⟩
        (front ++ document) = (first + complete.length, last + complete.length) := by
  intro first last
  refine ⟨?_, fun hsome => ?_, fun hempty => ?_, fun complete hcomplete => ?_⟩
  · obtain ⟨ended, final, hlines, hdocument, hended, hfinal⟩ :=
      Text.exists_wholeLines document.toList
    have hlength := Text.length_wholeLines document.toList
    rw [hlines, List.length_append, List.length_singleton] at hlength
    exact ⟨ended, final, hlines, hdocument, hended, hfinal, Nat.succ.inj hlength⟩
  · have hlt := isEmpty_eq_false_iff.1 hsome
    have hstop := stop_le_of_fits hfits
    rw [Text.byteSize_toList] at hstop
    have hpair := lines_of_not_isEmpty document hsome
    have hfirst : first = lineAt document span.start := congrArg Prod.fst hpair
    have hlast : last = lineAt document (span.stop - 1) := congrArg Prod.snd hpair
    have honFirst : IsOnLine document first span.start := hfirst ▸ isOnLine_lineAt (by omega)
    have honLast : IsOnLine document last (span.stop - 1) := hlast ▸ isOnLine_lineAt (by omega)
    have hle : first ≤ last := honFirst.le honLast (by omega)
    refine ⟨hle, ?_, ?_, honFirst, honLast, lineSpan_holds_iff hlt honFirst honLast,
      slice?_lineSpan document (by omega), fun text htext hlf => ?_⟩
    · rw [hfirst, lineAt]
      exact Nat.le_add_left 1 _
    · rw [hlast, lineAt, Nat.add_comm 1]
      exact Nat.succ_le_succ (lineFeedsBefore_le _ _)
    · obtain ⟨front, text', rest, hdocument, rfl⟩ := fits_iff_exists_split.1 hfits
      rw [slice?_of_split hdocument] at htext
      rw [← Option.some.inj htext, String.toList_ofList] at hlf
      obtain ⟨init, rfl⟩ := List.getLast?_eq_some_iff.1 hlf
      have hsplit : document.toList = (front ++ init) ++ '\n' :: rest := by
        rw [hdocument]
        simp
      have hbefore : byteSize (front ++ (init ++ ['\n'])) = byteSize (front ++ init) + 1 := by
        rw [← List.append_assoc, Text.byteSize_append]
        rfl
      rw [lineSpan, hlast, hbefore, Nat.add_sub_cancel]
      exact lineStop_lineAt hsplit
  · have hpair := lines_of_isEmpty document hempty
    have hfirst : first = lineAt document span.start := congrArg Prod.fst hpair
    have hlast : last = lineAt document span.start := congrArg Prod.snd hpair
    exact ⟨hfirst.trans hlast.symm, by rw [hfirst, lineAt_eq, Nat.add_comm]⟩
  · intro front
    have hfeeds : lineFeeds front.toList = complete.length := by
      rw [String.toList_ofList, Text.lineFeeds_flatten hcomplete]
    rw [lines_append, hfeeds]

/-- A span whose last byte lies inside a character, a span that ends with a line feed, also behind
two more lines, and a span without bytes. -/
theorem lines_exact_euro :
    let document := "ü\n€\ny"
    let span : Span := ⟨0, 6⟩
    let ended : Span := ⟨3, 7⟩
    let empty : Span := ⟨7, 7⟩
    (span.fits document = true ∧ span.isEmpty = false ∧ span.lines document = (1, 2) ∧
      IsOnLine document 1 0 ∧ IsOnLine document 2 5) ∧
    (ended.fits document = true ∧ ended.isEmpty = false ∧ ended.slice? document = some "€\n" ∧
      ended.lines document = (2, 2) ∧ (lineSpan document 2 2).stop = 7 ∧
      (⟨5 + 3, 5 + 7⟩ : Span).lines ("a\n!!\n" ++ document) = (4, 4)) ∧
    empty.fits document = true ∧ empty.isEmpty = true ∧ empty.lines document = (3, 3) ∧
      3 = 1 + ((Text.bytes document).take 7).count '\n'.toUInt8 := by
  intro document span ended empty
  have hspan : span.fits document = true := by decide +kernel
  have hended : ended.fits document = true := by decide +kernel
  have hempty : empty.fits document = true := by decide +kernel
  have hlines : span.lines document = (1, 2) := by decide +kernel
  have hlines' : ended.lines document = (2, 2) := by decide +kernel
  have hlines'' : empty.lines document = (3, 3) := by decide +kernel
  have htext : ended.slice? document = some "€\n" := by decide +kernel
  have hcomplete : ∀ l ∈ [['a', '\n'], ['!', '!', '\n']], Text.IsWholeLine l := by
    simp only [List.forall_mem_cons, List.not_mem_nil, false_implies, implies_true, and_true]
    exact ⟨⟨['a'], by decide, rfl⟩, ⟨['!', '!'], by decide, rfl⟩⟩
  obtain ⟨-, hsome, -, -⟩ := lines_exact document span hspan
  obtain ⟨-, hsome', -, hmoved⟩ := lines_exact document ended hended
  obtain ⟨-, -, hnone, -⟩ := lines_exact document empty hempty
  rw [hlines] at hsome
  rw [hlines'] at hsome' hmoved
  rw [hlines''] at hnone
  obtain ⟨-, -, -, hfirst, hlast, -⟩ := hsome rfl
  obtain ⟨-, -, -, -, -, -, -, hstop⟩ := hsome' rfl
  exact ⟨⟨hspan, rfl, hlines, hfirst, hlast⟩,
    ⟨hended, rfl, htext, hlines', hstop _ htext (by decide), hmoved _ hcomplete⟩,
    hempty, rfl, hlines'', (hnone rfl).2⟩

end Span

end BlockEdit
