import BlockEdit.Config.Field
import Mathlib.Data.List.Nodup

/-!
# Records as tables

The value of a field is the one value that is written for its name, and a key that names no field
makes no difference (`pick?_eq`). Where no key is written twice, this is what the name is looked up
to (`pick?_eq_lookup`). In a configuration value such a record is a
table whose keys are texts (`Value.ofRecord`), and is read alike (`fields?_ofRecord`).
-/

namespace BlockEdit.Config

section Option

variable {α β : Type} {f : α → Option β}

/-- Reading every item of a list succeeds where reading each of them does. -/
theorem mapM_eq_some_map {g : α → β} {as : List α} (h : ∀ a ∈ as, f a = some (g a)) :
    as.mapM f = some (as.map g) := by
  induction as with
  | nil => rfl
  | cons a as ih =>
    obtain ⟨ha, has⟩ := List.forall_mem_cons.1 h
    rw [List.mapM_cons, ha, ih has]
    rfl

/-- Reading every item of a list fails where reading one of them does. -/
theorem mapM_eq_none {a : α} {as : List α} (hmem : a ∈ as) (ha : f a = none) :
    as.mapM f = none := by
  induction as with
  | nil => cases hmem
  | cons b as ih =>
    rw [List.mapM_cons]
    obtain rfl | hmem := List.mem_cons.1 hmem
    · rw [ha]
      rfl
    · rw [ih hmem]
      cases f b <;> rfl

/-- Reading every item of a list gives what is read of each, if all of them are read. -/
theorem mapM_eq_some_iff {as : List α} {bs : List β} :
    as.mapM f = some bs ↔ (∀ a ∈ as, (f a).isSome) ∧ as.filterMap f = bs := by
  induction as generalizing bs with
  | nil => simp
  | cons a as ih =>
    constructor
    · intro h
      rw [List.mapM_cons] at h
      obtain ⟨b, hb, h⟩ := Option.bind_eq_some_iff.1 h
      obtain ⟨bs', hbs, h⟩ := Option.bind_eq_some_iff.1 h
      obtain rfl : b :: bs' = bs := Option.some.inj h
      obtain ⟨hall, hmap⟩ := ih.1 hbs
      refine ⟨List.forall_mem_cons.2 ⟨by rw [hb, Option.isSome_some], hall⟩, ?_⟩
      rw [List.filterMap_cons_some hb, hmap]
    · rintro ⟨hall, rfl⟩
      obtain ⟨ha, has⟩ := List.forall_mem_cons.1 hall
      obtain ⟨b, hb⟩ := Option.isSome_iff_exists.1 ha
      rw [List.mapM_cons, hb, ih.2 ⟨has, rfl⟩, List.filterMap_cons_some hb]
      rfl

/-- Items that are each read back after they have been written. -/
theorem mapM_map_eq_some {read : β → Option α} {write : α → β} {as : List α}
    (h : ∀ a ∈ as, read (write a) = some a) : (as.map write).mapM read = some as := by
  have hmap := mapM_eq_some_map (f := read ∘ write) (g := id) h
  rwa [List.map_id, ← List.mapM_map] at hmap

/-- What has been read is what each item is read as. -/
theorem forall_of_mapM_eq_some {p : β → Prop} (hp : ∀ a b, f a = some b → p b) {as : List α}
    {bs : List β} (h : as.mapM f = some bs) : ∀ b ∈ bs, p b := by
  induction as generalizing bs with
  | nil =>
    obtain rfl : [] = bs := Option.some.inj h
    nofun
  | cons a as ih =>
    rw [List.mapM_cons] at h
    obtain ⟨b, hb, h⟩ := Option.bind_eq_some_iff.1 h
    obtain ⟨bs', hbs, h⟩ := Option.bind_eq_some_iff.1 h
    obtain rfl : b :: bs' = bs := Option.some.inj h
    exact List.forall_mem_cons.2 ⟨hp a b hb, ih hbs⟩

/-- What has been read for a field that must be written is what something is read as. -/
theorem of_readRequired {p : β → Prop} (hp : ∀ a b, f a = some b → p b) {field : Option α} {b : β}
    (h : readRequired f field = some b) : p b := by
  cases field with
  | none => cases h
  | some a => exact hp a b h

end Option

section Fields

variable {α : Type} {names : List String} {entries : List (String × α)} {key : String} {i : Nat}

/-- The entries whose keys name fields, by the places of the fields. -/
def placed (names : List String) (entries : List (String × α)) : List (Nat × α) :=
  entries.filterMap fun (key, v) => (names.idxOf? key).map fun i => (i, v)

theorem placed_cons_some (h : names.idxOf? key = some i) (v : α) :
    placed names ((key, v) :: entries) = (i, v) :: placed names entries := by
  simp [placed, h]

theorem placed_cons_none (h : names.idxOf? key = none) (v : α) :
    placed names ((key, v) :: entries) = placed names entries := by
  simp [placed, h]

/-- The entries of a key that is not written twice. -/
theorem filter_key_eq (hkeys : (entries.map Prod.fst).Nodup) (key : String) :
    entries.filter (·.1 = key) = ((entries.lookup key).map (key, ·)).toList := by
  induction entries with
  | nil => rfl
  | cons e entries ih =>
    obtain ⟨key', v⟩ := e
    obtain ⟨hfresh, hkeys⟩ := List.nodup_cons.1 hkeys
    by_cases h : key' = key
    · subst h
      have hrest : entries.filter (·.1 = key') = [] := by
        refine List.filter_eq_nil_iff.2 fun e he heq => hfresh ?_
        exact List.mem_map.2 ⟨e, he, of_decide_eq_true heq⟩
      simp [hrest]
    · have hne : (key == key') = false := beq_eq_false_iff_ne.2 (Ne.symm h)
      rw [List.filter_cons, if_neg (by simpa using h), ih hkeys, List.lookup_cons, hne]

theorem idxOf?_eq_some_iff (hnames : names.Nodup) (hi : i < names.length) :
    names.idxOf? key = some i ↔ key = names[i] := by
  rw [List.idxOf?_eq_some_iff]
  constructor
  · rintro ⟨_, hkey, -⟩
    exact hkey.symm
  · rintro rfl
    refine ⟨hi, rfl, fun j hj heq => ?_⟩
    have hj' : j < names.length := Nat.lt_trans hj hi
    have hji : j = i := (hnames.getElem_inj_iff (i := j) (j := i)).1 heq
    omega

/-- Among the entries that name fields, those of the field at a place are those of its name. -/
theorem filter_placed (hnames : names.Nodup) (hi : i < names.length) :
    (placed names entries).filter (·.1 = i) =
      (entries.filter (·.1 = names[i])).map fun e => (i, e.2) := by
  induction entries with
  | nil => rfl
  | cons e entries ih =>
    obtain ⟨key, v⟩ := e
    by_cases hkey : key = names[i]
    · rw [placed_cons_some ((idxOf?_eq_some_iff hnames hi).2 hkey), List.filter_cons,
        if_pos (by simp), ih, List.filter_cons, if_pos (by simpa using hkey), List.map_cons]
    · rw [List.filter_cons_of_neg (by simpa using hkey), ← ih]
      cases hj : names.idxOf? key with
      | none => rw [placed_cons_none hj]
      | some j =>
        have hne : j ≠ i := fun h => hkey ((idxOf?_eq_some_iff hnames hi).1 (h ▸ hj))
        rw [placed_cons_some hj, List.filter_cons_of_neg (by simpa using hne)]

/-- The values that are written for a key, in order. -/
def valuesOf (key : String) (entries : List (String × α)) : List α :=
  (entries.filter (·.1 = key)).map Prod.snd

theorem valuesOf_append (key : String) (entries entries' : List (String × α)) :
    valuesOf key (entries ++ entries') = valuesOf key entries ++ valuesOf key entries' := by
  rw [valuesOf, List.filter_append, List.map_append, valuesOf, valuesOf]

theorem valuesOf_cons_self (key : String) (v : α) (entries : List (String × α)) :
    valuesOf key ((key, v) :: entries) = v :: valuesOf key entries := by
  rw [valuesOf, List.filter_cons_of_pos (by simp), List.map_cons, valuesOf]

theorem valuesOf_cons_of_ne {key' : String} (h : key' ≠ key) (v : α)
    (entries : List (String × α)) : valuesOf key ((key', v) :: entries) = valuesOf key entries := by
  rw [valuesOf, List.filter_cons_of_neg (by simpa using h), valuesOf]

theorem valuesOf_perm {entries' : List (String × α)} (h : entries.Perm entries') (key : String) :
    (valuesOf key entries).Perm (valuesOf key entries') := (h.filter _).map _

/-- The value of a field is the one that is written for its name, and it must be the only one. -/
theorem valueAt?_placed (hnames : names.Nodup) (hi : i < names.length) :
    valueAt? (placed names entries) i =
      if (valuesOf names[i] entries).length ≤ 1 then some (valuesOf names[i] entries).head?
      else none := by
  rw [valueAt?, filter_placed hnames hi, valuesOf]
  generalize List.filter _ entries = written
  obtain _ | ⟨e, _ | ⟨e', es⟩⟩ := written
  · rfl
  · rfl
  · simp

/-- The fields of a record, none of which may be written twice. -/
theorem pick?_eq (hnames : names.Nodup) :
    pick? names entries =
      if ∀ name ∈ names, (valuesOf name entries).length ≤ 1 then
        some (names.map fun name => (valuesOf name entries).head?)
      else none := by
  have hpick : pick? names entries = valuesUpTo? names.length (placed names entries) := rfl
  rw [hpick, valuesUpTo?]
  split
  · next honce =>
    have hvalue : ∀ i ∈ List.range names.length, valueAt? (placed names entries) i =
        some (names[i]?.bind fun name => (valuesOf name entries).head?) := by
      intro i hi
      have hi := List.mem_range.1 hi
      rw [valueAt?_placed hnames hi, if_pos (honce _ (List.getElem_mem hi)),
        List.getElem?_eq_getElem hi, Option.bind_some]
    rw [mapM_eq_some_map hvalue]
    congr 1
    refine List.ext_getElem (by simp) fun i hi _ => ?_
    have hi : i < names.length := by simpa using hi
    simp [List.getElem?_eq_getElem hi]
  · next htwice =>
    obtain ⟨name, hname, hmore⟩ : ∃ name ∈ names, ¬(valuesOf name entries).length ≤ 1 := by
      simpa using htwice
    obtain ⟨i, hi, rfl⟩ := List.getElem_of_mem hname
    refine mapM_eq_none (List.mem_range.2 hi) ?_
    rw [valueAt?_placed hnames hi, if_neg hmore]

/-- A record is read by what is written for the names of its fields. -/
theorem pick?_congr {entries' : List (String × α)} (hnames : names.Nodup)
    (h : ∀ name ∈ names, valuesOf name entries = valuesOf name entries') :
    pick? names entries = pick? names entries' := by
  have honce : (∀ name ∈ names, (valuesOf name entries).length ≤ 1) ↔
      ∀ name ∈ names, (valuesOf name entries').length ≤ 1 :=
    forall₂_congr fun name hname => by rw [h name hname]
  have hfields : (names.map fun name => (valuesOf name entries).head?) =
      names.map fun name => (valuesOf name entries').head? :=
    List.map_congr_left fun name hname => by rw [h name hname]
  rw [pick?_eq hnames, pick?_eq hnames, hfields, if_congr honce rfl rfl]

theorem valuesOf_eq_lookup (hkeys : (entries.map Prod.fst).Nodup) (key : String) :
    valuesOf key entries = (entries.lookup key).toList := by
  rw [valuesOf, filter_key_eq hkeys]
  cases entries.lookup key <;> rfl

/-- The values of fields that are not written twice are those that their names are looked up to. -/
theorem pick?_eq_lookup (hnames : names.Nodup) (hkeys : (entries.map Prod.fst).Nodup) :
    pick? names entries = some (names.map fun name => entries.lookup name) := by
  rw [pick?_eq hnames]
  simp only [valuesOf_eq_lookup hkeys, Option.head?_toList]
  exact if_pos fun name _ => Option.length_toList_le

end Fields

/-! ### Records in configuration values -/

/-- Entries with their keys as values. -/
def textKeys (entries : List (String × Value)) : List (Value × Value) :=
  entries.map fun (key, v) => (.text key, v)

/-- A record as a table. -/
def Value.ofRecord (entries : List (String × Value)) : Value := .table (textKeys entries)

@[simp] theorem textKeys_cons (key : String) (v : Value) (entries : List (String × Value)) :
    textKeys ((key, v) :: entries) = (.text key, v) :: textKeys entries := rfl

theorem numbered?_textKeys (names : List String) (entries : List (String × Value)) :
    numbered? names (textKeys entries) = some (placed names entries) := by
  induction entries with
  | nil => rfl
  | cons e entries ih =>
    obtain ⟨key, v⟩ := e
    rw [textKeys_cons, numbered?, ih]
    cases h : names.idxOf? key with
    | none => simp [Value.fieldIndex?, h, placed_cons_none h]
    | some i => simp [Value.fieldIndex?, h, placed_cons_some h]

theorem fields?_ofRecord (names : List String) (entries : List (String × Value)) :
    (Value.ofRecord entries).fields? names = pick? names entries := by
  rw [Value.ofRecord, Value.fields?, tableFields?, numbered?_textKeys]
  rfl

end BlockEdit.Config
