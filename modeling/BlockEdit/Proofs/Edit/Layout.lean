import BlockEdit.Edit.Formats
import BlockEdit.Proofs.Edit.Record
import Mathlib.Data.List.Perm.Basic
import Mathlib.Logic.Relation

/-!
# How the object of an edit is laid out

What an object is read as depends only on what it writes for each key (`ofJson?_object_iff`). So an
edit stays the same when the entries of its object change places, when entries come in whose keys
are none of its fields, and when an entry is left out whose value is the default of its field
(`Relays`). An object stands for no edit any more when a key of the edit is written twice, when a
field is left out that has no default, and when a number is replaced by a value that is no natural
number (`Spoils`). Both is `ofJson?_relaid`.
-/

namespace BlockEdit.Edit

open Config (Value valuesOf)
open Json (text? toConfig? entriesToConfig?)

variable {written written' : String → List Value} {edit edit' : Edit} {kind : Kind}
  {key name : String} {v : Value} {depth : Nat}

/-! ### Fields of a kind -/

/-- The value of the entry is the default of the field with its key. -/
inductive IsDefault : String → Value → Prop
  | occurrence {v : Value} (h : v.natural? = some defaultOccurrence) : IsDefault "occurrence" v
  | placement {v : Value} (h : v.choice? Placement.names = some defaultPlacement) :
    IsDefault "placement" v
  | tokens {v : Value} (h : TokenPair.ofValue? v = some defaultTokens) : IsDefault "tokens" v

theorem IsDefault.ne_kindKey (h : IsDefault name v) : name ≠ kindKey := by
  cases h <;> decide

/-- The fields that have a default. -/
def defaulted : List String := ["occurrence", "placement", "tokens"]

/-- The fields that are numbers. -/
def numbers : List String := ["occurrence", "start", "end"]

section Fields

variable {fields fields' : String → Option Value}

/-- A field whose value is the default may be left out. -/
theorem ofFields?_of_isDefault (hdefault : IsDefault key v) (hv : fields key = some v)
    (hnone : fields' key = none) (hsame : ∀ name, name ≠ key → fields' name = fields name) :
    ofFields? kind (kind.fields.map fields') = ofFields? kind (kind.fields.map fields) := by
  cases hdefault <;> cases kind <;>
    simp_all [Kind.fields, ofFields?, Config.readOr]

/-- A field without a default may not be left out. -/
theorem ofFields?_of_missing (hkey : key ∈ kind.fields) (hdefault : key ∉ defaulted)
    (hnone : fields key = none) : ofFields? kind (kind.fields.map fields) = none := by
  cases kind <;> simp only [Kind.fields, List.mem_cons, List.not_mem_nil, or_false] at hkey
  case insert =>
    obtain rfl | rfl | rfl | rfl := hkey
    · simp [Kind.fields, ofFields?, Config.readRequired, hnone]
    · exact absurd (by decide) hdefault
    · exact absurd (by decide) hdefault
    · simp [Kind.fields, ofFields?, Config.readRequired, hnone]
  case replaceBlock =>
    obtain rfl | rfl | rfl | rfl := hkey
    · simp [Kind.fields, ofFields?, Config.readRequired, hnone]
    · exact absurd (by decide) hdefault
    · exact absurd (by decide) hdefault
    · simp [Kind.fields, ofFields?, Config.readRequired, hnone]
  case replaceSpan =>
    obtain rfl | rfl | rfl := hkey <;>
      simp [Kind.fields, ofFields?, Config.readRequired, hnone]

/-- A field that is a number is read from natural numbers alone. -/
theorem ofFields?_of_not_natural (hkey : key ∈ kind.fields) (hnumber : key ∈ numbers)
    (hv : fields key = some v) (hnatural : v.natural? = none) :
    ofFields? kind (kind.fields.map fields) = none := by
  simp only [numbers, List.mem_cons, List.not_mem_nil, or_false] at hnumber
  obtain rfl | rfl | rfl := hnumber <;> cases kind <;>
    first
    | exact absurd hkey (by decide)
    | simp [Kind.fields, ofFields?, Config.readRequired, Config.readOr, hv, hnatural]

end Fields

/-! ### What is written -/

/-- The order of what is written for a key makes no difference, nor does what is written for keys
that are none of the edit. -/
theorem Writes.of_perm (h : Writes written edit)
    (hperm : ∀ key ∈ kindKey :: edit.kind.fields, (written' key).Perm (written key)) :
    Writes written' edit := by
  obtain ⟨⟨name, hname, hkind⟩, honce, hfields⟩ := h
  obtain ⟨hpermKind, hpermFields⟩ := List.forall_mem_cons.1 hperm
  rw [hname, List.perm_singleton] at hpermKind
  have hhead : ∀ field ∈ edit.kind.fields, (written' field).head? = (written field).head? := by
    intro field hfield
    have hfieldPerm := hpermFields field hfield
    have hlength := honce field hfield
    obtain hnil | ⟨v, hv⟩ : written field = [] ∨ ∃ v, written field = [v] := by
      rw [← List.length_eq_zero_iff, ← List.length_eq_one_iff]
      omega
    · rw [hnil, List.perm_nil] at hfieldPerm
      rw [hfieldPerm, hnil]
    · rw [hv, List.perm_singleton] at hfieldPerm
      rw [hfieldPerm, hv]
  refine ⟨⟨name, hpermKind, hkind⟩, fun field hfield => ?_, ?_⟩
  · rw [(hpermFields field hfield).length_eq]
    exact honce field hfield
  · rw [List.map_congr_left hhead]
    exact hfields

/-- The kind of an edit is the one that is written. -/
theorem Writes.kind_eq (h : Writes written edit) (h' : Writes written' edit')
    (hsame : written' kindKey = written kindKey) : edit'.kind = edit.kind := by
  obtain ⟨name, hname, hkind⟩ := h.kind
  obtain ⟨name', hname', hkind'⟩ := h'.kind
  rw [hsame, hname, List.cons.injEq] at hname'
  rw [← hname'.1, hkind] at hkind'
  exact (Option.some.inj hkind').symm

/-- What is written for a key of the edit is written only once. -/
theorem Writes.length_le_one (h : Writes written edit) (hkey : key ∈ kindKey :: edit.kind.fields) :
    (written key).length ≤ 1 := by
  obtain rfl | hkey := List.mem_cons.1 hkey
  · obtain ⟨name, hname, -⟩ := h.kind
    simp [hname]
  · exact h.once key hkey

/-- What is the default of its field may just as well not be written. -/
theorem Writes.of_isDefault (h : Writes written edit) (hdefault : IsDefault name v)
    (hv : written name = [v]) (hnil : written' name = [])
    (hsame : ∀ key, key ≠ name → written' key = written key) : Writes written' edit := by
  obtain ⟨⟨kindName, hname, hkind⟩, honce, hfields⟩ := h
  refine ⟨⟨kindName, ?_, hkind⟩, fun field hfield => ?_, ?_⟩
  · rw [hsame _ hdefault.ne_kindKey.symm, hname]
  · by_cases hkey : field = name
    · rw [hkey, hnil]
      exact Nat.zero_le 1
    · rw [hsame field hkey]
      exact honce field hfield
  · rw [← hfields]
    refine ofFields?_of_isDefault hdefault ?_ ?_ fun key hkey => ?_
    · rw [hv, List.head?_cons]
    · rw [hnil, List.head?_nil]
    · rw [hsame key hkey]

/-- Where the same kind is written, the keys of both edits are the same. -/
theorem Writes.mem_keys (h : Writes written edit) (h' : Writes written' edit')
    (hsame : key ≠ kindKey → written' kindKey = written kindKey)
    (hkey : key ∈ kindKey :: edit.kind.fields) : key ∈ kindKey :: edit'.kind.fields := by
  by_cases hkind : key = kindKey
  · exact hkind ▸ List.mem_cons_self
  · rwa [h.kind_eq h' (hsame hkind)]

/-! ### Entries of an object -/

/-- An entry of an object, with its key and its value read. -/
def keyValue? (depth : Nat) (entry : List Char × Json.Value) : Option (String × Value) := do
  return (← text? entry.1, ← toConfig? depth entry.2)

/-- What the entries of an object write for each key. -/
def writtenIn (depth : Nat) (entries : List (List Char × Json.Value)) (key : String) :
    List Value :=
  valuesOf key (entries.filterMap (keyValue? depth))

section Entries

variable {entries entries' front rest : List (List Char × Json.Value)}
  {entry : List Char × Json.Value}

theorem entriesToConfig?_eq (depth : Nat) (entries : List (List Char × Json.Value)) :
    entriesToConfig? depth entries = (entries.mapM (keyValue? depth)).map Config.textKeys := by
  induction entries with
  | nil => rfl
  | cons entry entries ih =>
    obtain ⟨key, v⟩ := entry
    rw [entriesToConfig?, List.mapM_cons, keyValue?, ih]
    cases text? key with
    | none => rfl
    | some key =>
      cases toConfig? depth v with
      | none => rfl
      | some v => cases entries.mapM (keyValue? depth) <;> rfl

/-- An object stands for the edit that it writes, if all of its entries can be read. -/
theorem ofJson?_object_iff :
    ofJson? (depth + 1) (.object entries) = some edit ↔
      (∀ entry ∈ entries, (keyValue? depth entry).isSome) ∧
        Writes (writtenIn depth entries) edit := by
  have hread : ofJson? (depth + 1) (.object entries) =
      (entries.mapM (keyValue? depth)).bind fun records => ofValue? (.ofRecord records) := by
    rw [ofJson?, toConfig?, if_neg (Nat.succ_ne_zero depth), Nat.add_sub_cancel,
      entriesToConfig?_eq]
    cases entries.mapM (keyValue? depth) <;> rfl
  rw [hread, Option.bind_eq_some_iff]
  simp only [Config.mapM_eq_some_iff, ofValue?_ofRecord_iff]
  constructor
  · rintro ⟨_, ⟨hall, rfl⟩, hwrites⟩
    exact ⟨hall, hwrites⟩
  · rintro ⟨hall, hwrites⟩
    exact ⟨_, ⟨hall, rfl⟩, hwrites⟩

theorem writtenIn_append (depth : Nat) (front rest : List (List Char × Json.Value))
    (key : String) : writtenIn depth (front ++ rest) key =
      writtenIn depth front key ++ writtenIn depth rest key := by
  rw [writtenIn, List.filterMap_append, Config.valuesOf_append, writtenIn, writtenIn]

theorem writtenIn_cons_self (h : keyValue? depth entry = some (key, v))
    (rest : List (List Char × Json.Value)) :
    writtenIn depth (entry :: rest) key = v :: writtenIn depth rest key := by
  rw [writtenIn, List.filterMap_cons_some h, Config.valuesOf_cons_self, writtenIn]

theorem writtenIn_cons_of_ne (h : keyValue? depth entry = some (name, v)) (hne : name ≠ key)
    (rest : List (List Char × Json.Value)) :
    writtenIn depth (entry :: rest) key = writtenIn depth rest key := by
  rw [writtenIn, List.filterMap_cons_some h, Config.valuesOf_cons_of_ne hne, writtenIn]

/-- An entry in the middle makes a difference to its key alone. -/
theorem writtenIn_middle (h : keyValue? depth entry = some (name, v)) (hne : name ≠ key) :
    writtenIn depth (front ++ entry :: rest) key = writtenIn depth (front ++ rest) key := by
  rw [writtenIn_append, writtenIn_cons_of_ne h hne, writtenIn_append]

theorem writtenIn_middle_self (h : keyValue? depth entry = some (key, v)) :
    writtenIn depth (front ++ entry :: rest) key =
      writtenIn depth front key ++ v :: writtenIn depth rest key := by
  rw [writtenIn_append, writtenIn_cons_self h]

/-- A key of the edit is written in one entry alone. -/
theorem Writes.writtenIn_eq_nil (h : Writes (writtenIn depth (front ++ entry :: rest)) edit)
    (hread : keyValue? depth entry = some (key, v)) (hkey : key ∈ kindKey :: edit.kind.fields) :
    writtenIn depth front key = [] ∧ writtenIn depth rest key = [] := by
  have hlength := h.length_le_one hkey
  rw [writtenIn_middle_self hread, List.length_append, List.length_cons] at hlength
  rw [← List.length_eq_zero_iff, ← List.length_eq_zero_iff]
  omega

/-- A key that is written in an entry is written. -/
theorem mem_writtenIn (hentry : entry ∈ entries) (hread : keyValue? depth entry = some (key, v)) :
    v ∈ writtenIn depth entries key := by
  have hmem : (key, v) ∈ entries.filterMap (keyValue? depth) :=
    List.mem_filterMap.2 ⟨entry, hentry, hread⟩
  exact List.mem_map.2 ⟨(key, v), List.mem_filter.2 ⟨hmem, by simp⟩, rfl⟩

/-! An entry comes in, is left out, or is replaced. -/

/-- An entry that has no key of the edit may come in. -/
theorem Writes.inserted (h : Writes (writtenIn depth (front ++ rest)) edit)
    (hread : keyValue? depth entry = some (name, v)) (hname : name ∉ kindKey :: edit.kind.fields) :
    Writes (writtenIn depth (front ++ entry :: rest)) edit := by
  refine h.of_perm fun key hkey => ?_
  rw [writtenIn_middle hread (by rintro rfl; exact hname hkey)]

/-- An entry whose value is the default of its field may be left out. -/
theorem Writes.leftOut (h : Writes (writtenIn depth (front ++ entry :: rest)) edit)
    (hread : keyValue? depth entry = some (name, v)) (hdefault : IsDefault name v) :
    Writes (writtenIn depth (front ++ rest)) edit := by
  by_cases hname : name ∈ kindKey :: edit.kind.fields
  · obtain ⟨hfront, hrest⟩ := h.writtenIn_eq_nil hread hname
    refine h.of_isDefault hdefault ?_ ?_ fun key hkey => ?_
    · rw [writtenIn_middle_self hread, hfront, hrest, List.nil_append]
    · rw [writtenIn_append, hfront, hrest, List.nil_append]
    · rw [writtenIn_middle hread hkey.symm]
  · refine h.of_perm fun key hkey => ?_
    rw [writtenIn_middle hread (by rintro rfl; exact hname hkey)]

/-- A key of the edit that is written may not be written once more. -/
theorem Writes.not_repeated (h : Writes (writtenIn depth (front ++ rest)) edit)
    (hread : keyValue? depth entry = some (name, v)) (hname : name ∈ kindKey :: edit.kind.fields)
    (hwritten : writtenIn depth (front ++ rest) name ≠ []) :
    ¬Writes (writtenIn depth (front ++ entry :: rest)) edit' := by
  intro h'
  have hname' := h.mem_keys h' (fun hne => writtenIn_middle hread hne) hname
  obtain ⟨hfront, hrest⟩ := h'.writtenIn_eq_nil hread hname'
  rw [writtenIn_append, hfront, hrest] at hwritten
  exact hwritten rfl

/-- The kind and the fields without a default may not be left out. -/
theorem Writes.not_missing (h : Writes (writtenIn depth (front ++ entry :: rest)) edit)
    (hread : keyValue? depth entry = some (name, v)) (hname : name ∈ kindKey :: edit.kind.fields)
    (hdefault : name ∉ defaulted) : ¬Writes (writtenIn depth (front ++ rest)) edit' := by
  intro h'
  obtain ⟨hfront, hrest⟩ := h.writtenIn_eq_nil hread hname
  have hnil : writtenIn depth (front ++ rest) name = [] := by
    rw [writtenIn_append, hfront, hrest, List.nil_append]
  have hname' := h.mem_keys h' (fun hne => (writtenIn_middle hread hne).symm) hname
  obtain rfl | hname' := List.mem_cons.1 hname'
  · obtain ⟨kindName, hkind, -⟩ := h'.kind
    rw [hnil] at hkind
    cases hkind
  · have hfields := h'.fields
    rw [ofFields?_of_missing hname' hdefault (by rw [hnil, List.head?_nil])] at hfields
    cases hfields

/-- A number may not be replaced by a value that is no natural number. -/
theorem Writes.not_misread {entry' : List Char × Json.Value} {v' : Value}
    (h : Writes (writtenIn depth (front ++ entry :: rest)) edit)
    (hread : keyValue? depth entry = some (name, v))
    (hread' : keyValue? depth entry' = some (name, v')) (hname : name ∈ edit.kind.fields)
    (hnumber : name ∈ numbers) (hv : v'.natural? = none) :
    ¬Writes (writtenIn depth (front ++ entry' :: rest)) edit' := by
  intro h'
  have hne : name ≠ kindKey := by
    rintro rfl
    exact edit.kind.kindKey_not_mem_fields hname
  have hkind : edit'.kind = edit.kind :=
    h.kind_eq h' ((writtenIn_middle hread' hne).trans (writtenIn_middle hread hne).symm)
  obtain ⟨hfront, -⟩ := h.writtenIn_eq_nil hread (List.mem_cons_of_mem _ hname)
  have hhead : (writtenIn depth (front ++ entry' :: rest) name).head? = some v' := by
    rw [writtenIn_middle_self hread', hfront, List.nil_append, List.head?_cons]
  have hfields := h'.fields
  rw [hkind, ofFields?_of_not_natural hname hnumber hhead hv] at hfields
  cases hfields

theorem keyValue?_eq_some_iff : keyValue? depth entry = some (key, v) ↔
    text? entry.1 = some key ∧ toConfig? depth entry.2 = some v := by
  rw [keyValue?]
  cases text? entry.1 <;> cases toConfig? depth entry.2 <;> simp

theorem exists_keyValue? (h : (keyValue? depth entry).isSome) (hkey : text? entry.1 = some key) :
    ∃ v, keyValue? depth entry = some (key, v) := by
  obtain ⟨⟨key', v⟩, hread⟩ := Option.isSome_iff_exists.1 h
  obtain rfl := Option.some.inj (hkey.symm.trans (keyValue?_eq_some_iff.1 hread).1)
  exact ⟨v, hread⟩

end Entries

/-! ### Objects of the same edit -/

/-- A value that is no natural number: a number is written with a sign, a point or an exponent. -/
inductive IsNoNatural : Json.Value → Prop
  | negative (digits : List Char) : IsNoNatural (.number ('-' :: digits))
  | fractional (lexeme : List Char) (h : '.' ∈ lexeme ∨ 'e' ∈ lexeme ∨ 'E' ∈ lexeme) :
    IsNoNatural (.number lexeme)
  | string (lexeme : List Char) : IsNoNatural (.string lexeme)
  | null : IsNoNatural .null
  | bool (b : Bool) : IsNoNatural (.bool b)
  | array (items : List Json.Value) : IsNoNatural (.array items)
  | object (entries : List (List Char × Json.Value)) : IsNoNatural (.object entries)

/-- The entries of an object are written in another way, in which an edit of the kind is the same:
in another order, with one more entry that can be read and has no key of the edit, or without an
entry whose value is the default of its field. -/
inductive Relays (depth : Nat) (kind : Kind) :
    List (List Char × Json.Value) → List (List Char × Json.Value) → Prop
  | permute {entries entries' : List (List Char × Json.Value)} (h : entries.Perm entries') :
    Relays depth kind entries entries'
  | insert (front rest : List (List Char × Json.Value)) {entry : List Char × Json.Value}
    {name : String} {v : Value} (hread : keyValue? depth entry = some (name, v))
    (hname : name ∉ kindKey :: kind.fields) :
    Relays depth kind (front ++ rest) (front ++ entry :: rest)
  | leaveOut (front rest : List (List Char × Json.Value)) {entry : List Char × Json.Value}
    {name : String} {v : Value} (hread : keyValue? depth entry = some (name, v))
    (hdefault : IsDefault name v) :
    Relays depth kind (front ++ entry :: rest) (front ++ rest)

/-- The entries of an object are changed so that no edit is left: a key of the edit is written once
more, an entry is missing whose field has no default, a number is replaced by another value, or an
entry comes in that cannot be read. -/
inductive Spoils (depth : Nat) (kind : Kind) :
    List (List Char × Json.Value) → List (List Char × Json.Value) → Prop
  | repeated (front rest : List (List Char × Json.Value)) {entry : List Char × Json.Value}
    {name : String} (hentry : text? entry.1 = some name) (hname : name ∈ kindKey :: kind.fields)
    (hwritten : ∃ other ∈ front ++ rest, text? other.1 = some name) :
    Spoils depth kind (front ++ rest) (front ++ entry :: rest)
  | missing (front rest : List (List Char × Json.Value)) {entry : List Char × Json.Value}
    {name : String} (hentry : text? entry.1 = some name) (hname : name ∈ kindKey :: kind.fields)
    (hdefault : name ∉ defaulted) :
    Spoils depth kind (front ++ entry :: rest) (front ++ rest)
  | misread (front rest : List (List Char × Json.Value)) {lexeme : List Char} {name : String}
    (v : Json.Value) {v' : Json.Value} (hentry : text? lexeme = some name)
    (hname : name ∈ kind.fields) (hnumber : name ∈ numbers) (hv : IsNoNatural v') :
    Spoils depth kind (front ++ (lexeme, v) :: rest) (front ++ (lexeme, v') :: rest)
  | unreadable (front rest : List (List Char × Json.Value)) {entry : List Char × Json.Value}
    (hread : keyValue? depth entry = none) :
    Spoils depth kind (front ++ rest) (front ++ entry :: rest)

theorem natural?_eq_none {lexeme : List Char} {c : Char} (hc : c ∈ lexeme)
    (hdigit : c.isDigit = false) : Json.natural? lexeme = none := by
  have hall : lexeme.all Char.isDigit = false := by
    rw [List.all_eq_false]
    exact ⟨c, hc, by simp [hdigit]⟩
  rw [Json.natural?, hall]
  rfl

theorem natural?_of_ofNumber? {lexeme : List Char} {char : Char} {c : Value} (hchar : char ∈ lexeme)
    (hdigit : char.isDigit = false) (hc : Json.ofNumber? lexeme = some c) : c.natural? = none := by
  have hfloat : ∀ {cs}, Json.ofFloat? cs = some c → c.natural? = none := fun {cs} hcs => by
    rw [Json.ofFloat?] at hcs
    split at hcs
    · cases hcs
    · rw [← Option.some.inj hcs]
      rfl
  unfold Json.ofNumber? at hc
  split at hc
  · split at hc
    · rw [← Option.some.inj hc]
      rfl
    · exact hfloat hc
  · rw [natural?_eq_none hchar hdigit] at hc
    exact hfloat hc

theorem natural?_of_isNoNatural {v : Json.Value} {c : Value} (h : IsNoNatural v)
    (hc : toConfig? depth v = some c) : c.natural? = none := by
  cases h with
  | negative digits =>
    rw [toConfig?] at hc
    exact natural?_of_ofNumber? List.mem_cons_self (by decide) hc
  | fractional lexeme h =>
    rw [toConfig?] at hc
    obtain h | h | h := h <;> exact natural?_of_ofNumber? h (by decide) hc
  | string lexeme =>
    rw [toConfig?] at hc
    obtain ⟨s, -, rfl⟩ := Option.map_eq_some_iff.1 hc
    rfl
  | null =>
    rw [toConfig?] at hc
    rw [← Option.some.inj hc]
    rfl
  | bool b =>
    rw [toConfig?] at hc
    rw [← Option.some.inj hc]
    rfl
  | array items =>
    rw [toConfig?] at hc
    split at hc
    · cases hc
    · obtain ⟨items, -, rfl⟩ := Option.map_eq_some_iff.1 hc
      rfl
  | object entries =>
    rw [toConfig?] at hc
    split at hc
    · cases hc
    · obtain ⟨entries, -, rfl⟩ := Option.map_eq_some_iff.1 hc
      rfl

section Steps

variable {entries entries' spoilt : List (List Char × Json.Value)}

/-- Writing the entries in another way keeps the edit. -/
theorem ofJson?_of_relays (h : ofJson? (depth + 1) (.object entries) = some edit)
    (hrelays : Relays depth edit.kind entries entries') :
    ofJson? (depth + 1) (.object entries') = some edit := by
  obtain ⟨hall, hwrites⟩ := ofJson?_object_iff.1 h
  rw [ofJson?_object_iff]
  cases hrelays with
  | permute hperm =>
    refine ⟨fun entry hentry => hall entry (hperm.mem_iff.2 hentry), ?_⟩
    exact hwrites.of_perm fun key _ => Config.valuesOf_perm (hperm.symm.filterMap _) key
  | insert front rest hread hname =>
    obtain ⟨hfront, hrest⟩ := List.forall_mem_append.1 hall
    refine ⟨List.forall_mem_append.2 ⟨hfront, List.forall_mem_cons.2 ⟨?_, hrest⟩⟩, ?_⟩
    · rw [hread, Option.isSome_some]
    · exact hwrites.inserted hread hname
  | leaveOut front rest hread hdefault =>
    obtain ⟨hfront, hrest⟩ := List.forall_mem_append.1 hall
    exact ⟨List.forall_mem_append.2 ⟨hfront, (List.forall_mem_cons.1 hrest).2⟩,
      hwrites.leftOut hread hdefault⟩

/-- Spoiling the entries leaves no edit. -/
theorem ofJson?_of_spoils (h : ofJson? (depth + 1) (.object entries) = some edit)
    (hspoils : Spoils depth edit.kind entries spoilt) :
    ofJson? (depth + 1) (.object spoilt) = none := by
  obtain ⟨hall, hwrites⟩ := ofJson?_object_iff.1 h
  refine Option.eq_none_iff_forall_ne_some.2 fun edit' h' => ?_
  obtain ⟨hall', hwrites'⟩ := ofJson?_object_iff.1 h'
  cases hspoils with
  | repeated front rest hentry hname hwritten =>
    obtain ⟨v, hread⟩ := exists_keyValue? (hall' _ List.mem_append_cons_self) hentry
    obtain ⟨other, hother, hotherName⟩ := hwritten
    obtain ⟨v', hread'⟩ := exists_keyValue? (hall other hother) hotherName
    have hmem := mem_writtenIn hother hread'
    exact hwrites.not_repeated hread hname (List.ne_nil_of_mem hmem) hwrites'
  | missing front rest hentry hname hdefault =>
    obtain ⟨v, hread⟩ := exists_keyValue? (hall _ List.mem_append_cons_self) hentry
    exact hwrites.not_missing hread hname hdefault hwrites'
  | misread front rest v hentry hname hnumber hv =>
    obtain ⟨c, hread⟩ := exists_keyValue? (hall _ List.mem_append_cons_self) hentry
    obtain ⟨c', hread'⟩ := exists_keyValue? (hall' _ List.mem_append_cons_self) hentry
    have hnatural := natural?_of_isNoNatural hv (keyValue?_eq_some_iff.1 hread').2
    exact hwrites.not_misread hread hread' hname hnumber hnatural hwrites'
  | unreadable front rest hread =>
    have hentry := hall' _ List.mem_append_cons_self
    rw [hread] at hentry
    cases hentry

/-- However the entries of an object are written in other ways one after the other, the edit stays
the same, and it is lost when they are spoilt. -/
theorem ofJson?_relaid (h : ofJson? (depth + 1) (.object entries) = some edit)
    (hrelays : Relation.ReflTransGen (Relays depth edit.kind) entries entries') :
    ofJson? (depth + 1) (.object entries') = some edit ∧
      ∀ spoilt, Spoils depth edit.kind entries' spoilt →
        ofJson? (depth + 1) (.object spoilt) = none := by
  have hrelaid : ofJson? (depth + 1) (.object entries') = some edit := by
    induction hrelays with
    | refl => exact h
    | tail _ hstep ih => exact ofJson?_of_relays ih hstep
  exact ⟨hrelaid, fun spoilt hspoils => ofJson?_of_spoils hrelaid hspoils⟩

end Steps

/-- The kind comes to the front, the placement, which is the usual one, is left out, and a field of
another kind comes in. A second kind spoils the object, in whatever form its key is written. -/
theorem ofJson?_relaid_insertion :
    let kindEntry := ("kind".toList, Json.Value.string "insert".toList)
    let marker := ("marker".toList, Json.Value.string "m".toList)
    let content := ("content".toList, Json.Value.string "c".toList)
    let placement := ("placement".toList, Json.Value.object [("before".toList, .null)])
    let start := ("start".toList, Json.Value.null)
    let entries := [marker, placement, content, kindEntry]
    let relaid := [kindEntry, marker, start, content]
    let edit := insert "m" 1 .before "c"
    ofJson? 2 (.object entries) = some edit ∧
      Relation.ReflTransGen (Relays 1 edit.kind) entries relaid ∧
      ofJson? 2 (.object relaid) = some edit ∧
      Spoils 1 edit.kind relaid (relaid ++ [("k\\u0069nd".toList, .null)]) ∧
      ofJson? 2 (.object (relaid ++ [("k\\u0069nd".toList, .null)])) = none := by
  intro kindEntry marker content placement start entries relaid edit
  have hread : ofJson? 2 (.object entries) = some edit := by decide +kernel
  have hplacement : keyValue? 1 placement =
      some ("placement", .table [(.text "before", .null)]) := rfl
  have hstart : keyValue? 1 start = some ("start", .null) := rfl
  have hleaveOut : Relays 1 edit.kind entries [marker, content, kindEntry] :=
    .leaveOut [marker] [content, kindEntry] hplacement (.placement rfl)
  have hpermute : Relays 1 edit.kind [marker, content, kindEntry] [kindEntry, marker, content] :=
    .permute (List.perm_append_comm : ([marker, content] ++ [kindEntry]).Perm _)
  have hinsert : Relays 1 edit.kind [kindEntry, marker, content] relaid :=
    .insert [kindEntry, marker] [content] hstart (by decide +kernel)
  have hrelays := ((Relation.ReflTransGen.single hleaveOut).tail hpermute).tail hinsert
  have hkey : text? "k\\u0069nd".toList = some kindKey := by decide +kernel
  have hkindEntry : text? kindEntry.1 = some kindKey := by decide +kernel
  have hspoils : Spoils 1 edit.kind relaid (relaid ++ [("k\\u0069nd".toList, .null)]) :=
    .repeated relaid [] hkey List.mem_cons_self ⟨kindEntry, List.mem_cons_self, hkindEntry⟩
  obtain ⟨hrelaid, hnone⟩ := ofJson?_relaid hread hrelays
  exact ⟨hread, hrelays, hrelaid, hspoils, hnone _ hspoils⟩

end BlockEdit.Edit
