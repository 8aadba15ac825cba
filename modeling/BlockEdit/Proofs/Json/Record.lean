import BlockEdit.Json.Field
import BlockEdit.Proofs.Config.Record
import BlockEdit.Proofs.Json.RoundTrip

/-!
# Records that are written

What `Value.ofText`, `Value.ofNat` and `Value.ofEntries` write is well formed and read back: a text
as the text, a natural as the natural if it is below the limit, and a record with different keys by
looking its fields up (`fields?_ofEntries`). The same holds when the values are read as
configuration values (`toConfig?_ofText`, `toConfig?_ofNat`, `toConfig?_ofEntries`).
-/

namespace BlockEdit.Json

/-! ### Well-formed values -/

theorem isLexical_ofText (s : String) : (Value.ofText s).IsLexical := stringLexeme?_escape s.toList

theorem isLexical_ofNat (n : Nat) : (Value.ofNat n).IsLexical := isNumber_toDigits n

theorem isLexical_bool (b : Bool) : (Value.bool b).IsLexical := trivial

theorem isLexical_array {vs : List Value} (h : ∀ v ∈ vs, v.IsLexical) :
    (Value.array vs).IsLexical := by
  change AreLexical vs
  induction vs with
  | nil => exact trivial
  | cons v vs ih =>
    obtain ⟨hv, hvs⟩ := List.forall_mem_cons.1 h
    exact ⟨hv, ih hvs⟩

theorem isLexical_ofEntries {entries : List (String × Value)}
    (h : ∀ e ∈ entries, e.2.IsLexical) : (Value.ofEntries entries).IsLexical := by
  rw [Value.ofEntries, Value.IsLexical]
  induction entries with
  | nil => exact trivial
  | cons e entries ih =>
    obtain ⟨hv, hvs⟩ := List.forall_mem_cons.1 h
    exact ⟨stringLexeme?_escape e.1.toList, hv, ih hvs⟩

/-! ### Reading values -/

section Reading

variable {n : Nat} {α : Type}

theorem text?_escape (s : String) : text? (escape s.toList) = some s := by
  rw [text?, unescape?_escape, Option.map_some, String.ofList_toList]

theorem natural?_toDigits (hn : n < Config.naturalLimit) :
    natural? (Nat.toDigits 10 n) = some n := by
  have hdigits : (Nat.toDigits 10 n).all Char.isDigit = true :=
    List.all_eq_true.2 fun c => isDigit_toDigits
  rw [natural?, ofDigits_toDigits, hdigits]
  simp [hn]

/-- Only naturals below the limit are read. -/
theorem lt_of_natural? {lexeme : List Char} (h : natural? lexeme = some n) :
    n < Config.naturalLimit := by
  rw [natural?] at h
  split at h
  · next hsmall =>
    rw [← Option.some.inj h]
    simpa using ((Bool.and_eq_true _ _).mp hsmall).2
  · cases h

@[simp] theorem Value.text?_ofText (s : String) : (Value.ofText s).text? = some s := text?_escape s

theorem Value.natural?_ofNat (hn : n < Config.naturalLimit) :
    (Value.ofNat n).natural? = some n := natural?_toDigits hn

theorem Value.lt_of_natural? {v : Value} (h : v.natural? = some n) : n < Config.naturalLimit := by
  cases v with
  | number l => exact Json.lt_of_natural? h
  | _ => cases h

@[simp] theorem Value.choice?_ofText (variants : List (String × α)) (word : String) :
    (Value.ofText word).choice? variants = variants.lookup word := by
  rw [Value.ofText, Value.choice?, text?_escape]
  rfl

@[simp] theorem Value.nullOr?_ofText (read : Value → Option α) (s : String) :
    (Value.ofText s).nullOr? read = (read (.ofText s)).map some := rfl

@[simp] theorem Value.nullOr?_ofEntries (read : Value → Option α)
    (entries : List (String × Value)) :
    (Value.ofEntries entries).nullOr? read = (read (.ofEntries entries)).map some := rfl

theorem Value.items?_map {read : Value → Option α} {write : α → Value} {as : List α}
    (h : ∀ a ∈ as, read (write a) = some a) :
    (Value.array (as.map write)).items? read = some as := Config.mapM_map_eq_some h

/-- What has been read from the items of an array are what its items are read as. -/
theorem Value.forall_of_items? {read : Value → Option α} {p : α → Prop}
    (hp : ∀ v a, read v = some a → p a) {v : Value} {as : List α} (h : v.items? read = some as) :
    ∀ a ∈ as, p a := by
  cases v with
  | array items => exact Config.forall_of_mapM_eq_some hp h
  | _ => cases h

/-- What has been read for a field that may be null or absent is what something is read as. -/
theorem Value.forall_of_readOr {read : Value → Option α} {p : α → Prop}
    (hp : ∀ v a, read v = some a → p a) {field : Option Value} {o : Option α}
    (h : Config.readOr none (nullOr? read) field = some o) : ∀ a ∈ o, p a := by
  cases field with
  | none =>
    obtain rfl : none = o := Option.some.inj h
    nofun
  | some v =>
    cases v with
    | null =>
      obtain rfl : none = o := Option.some.inj h
      nofun
    | _ =>
      obtain ⟨a, ha, rfl⟩ := Option.map_eq_some_iff.1 h
      rintro _ ⟨⟩
      exact hp _ a ha

end Reading

/-! ### Reading records -/

section Records

variable {entries : List (String × Value)} {names : List String}

theorem textEntries?_ofEntries (entries : List (String × Value)) :
    textEntries? (entries.map fun (key, v) => (escape key.toList, v)) = some entries :=
  Config.mapM_map_eq_some fun (key, v) _ => by simp only [text?_escape, Option.map_some]

/-- The fields of a record with different keys are those that their names are looked up to. -/
theorem Value.fields?_ofEntries (hnames : names.Nodup) (hkeys : (entries.map Prod.fst).Nodup) :
    (Value.ofEntries entries).fields? names = some (names.map fun name => entries.lookup name) := by
  rw [Value.ofEntries, Value.fields?, textEntries?_ofEntries]
  exact Config.pick?_eq_lookup hnames hkeys

end Records

/-! ### Configuration values -/

section Config

variable {n depth : Nat}

theorem toConfig?_ofText (depth : Nat) (s : String) :
    toConfig? depth (.ofText s) = some (.text s) := by
  rw [Value.ofText, toConfig?, text?_escape, Option.map_some]

theorem toConfig?_ofNat (depth : Nat) (hn : n < Config.naturalLimit) :
    toConfig? depth (.ofNat n) = some (.natural n) := by
  have hhead : ∀ cs, Nat.toDigits 10 n ≠ '-' :: cs := fun cs h => by
    have := isDigit_toDigits (n := n) (c := '-') (by simp [h])
    cases this
  rw [Value.ofNat, toConfig?, ofNumber?.eq_2 _ hhead, natural?_toDigits hn]

theorem entriesToConfig?_escape {entries : List (String × Value)}
    {entries' : List (String × Config.Value)}
    (h : entries.mapM (fun (key, v) => (toConfig? depth v).map fun v' => (key, v')) =
      some entries') :
    entriesToConfig? depth (entries.map fun (key, v) => (escape key.toList, v)) =
      some (Config.textKeys entries') := by
  induction entries generalizing entries' with
  | nil =>
    obtain rfl : [] = entries' := Option.some.inj h
    rfl
  | cons e entries ih =>
    obtain ⟨key, v⟩ := e
    rw [List.mapM_cons] at h
    obtain ⟨e', he, h⟩ := Option.bind_eq_some_iff.1 h
    obtain ⟨v', hv, rfl⟩ := Option.map_eq_some_iff.1 he
    obtain ⟨es', hes, h⟩ := Option.bind_eq_some_iff.1 h
    obtain rfl : (key, v') :: es' = entries' := Option.some.inj h
    rw [List.map_cons, entriesToConfig?, text?_escape, hv, ih hes]
    rfl

/-- A record is a table of its values, one level deeper. -/
theorem toConfig?_ofEntries {entries : List (String × Value)}
    {entries' : List (String × Config.Value)}
    (h : entries.mapM (fun (key, v) => (toConfig? depth v).map fun v' => (key, v')) =
      some entries') :
    toConfig? (depth + 1) (.ofEntries entries) = some (.ofRecord entries') := by
  rw [Value.ofEntries, toConfig?, if_neg (Nat.succ_ne_zero depth), Nat.add_sub_cancel,
    entriesToConfig?_escape h]
  rfl

end Config

end BlockEdit.Json
