import Predictive.Engine.Saved
import Predictive.Proofs.WellFormed

/-!
# Options given in two steps

Options are filled in from entries name by name, so an entry that is put in later changes the one
option that it names (`Options.filled_insertEntry`), and options that were filled in once are filled
in again from their own dictionary (`Options.filled_fields`). Putting given options into the
dictionary of an archive therefore gives the same options as giving both at once
(`Options.ofEntries_override`).
-/

set_option autoImplicit false

namespace Predictive

/-! ## Entries under texts -/

namespace Datum

@[simp] theorem beq_text (s t : String) : (Datum.text s == Datum.text t) = (s == t) := by
  change same _ _ = _
  rw [same]

/-- Nothing but a text is equal to a text. -/
theorem beq_text_iff {d : Datum} {s : String} : (d == .text s) = true ↔ d = .text s := by
  constructor
  · intro h
    cases d with
    | text t =>
        rw [beq_text] at h
        rw [eq_of_beq h]
    | _ => exact absurd h (by change ¬ same _ _ = true; simp [same, whole?, isReal])
  · rintro rfl
    rw [beq_text]
    exact beq_self_eq_true s

end Datum

namespace OrderedMap

variable {β : Type}

/-- A look-up under a text after an insertion under a text. -/
theorem lookupEntry_insertEntry_text (s t : String) (v : β) (es : List (Datum × β)) :
    lookupEntry (.text t) (insertEntry (.text s) v es) =
      if s = t then some v else lookupEntry (.text t) es := by
  induction es with
  | nil => simp [insertEntry, lookupEntry]
  | cons e es ih =>
      rw [insertEntry]
      by_cases hs : (e.1 == Datum.text s) = true
      · -- the value of this entry changes
        rw [if_pos hs, lookupEntry, lookupEntry, Datum.beq_text_iff.1 hs, Datum.beq_text]
        by_cases hst : s = t <;> simp [hst]
      · rw [if_neg hs, lookupEntry, lookupEntry, ih]
        by_cases ht : (e.1 == Datum.text t) = true
        · have hst : s ≠ t := by
            rintro rfl
            exact hs ht
          rw [if_pos ht, if_pos ht, if_neg hst]
        · rw [if_neg ht, if_neg ht]

/-- A look-up among entries under texts. -/
theorem lookupEntry_text (t : String) (fields : List (String × β)) :
    lookupEntry (Datum.text t) (fields.map fun f => (Datum.text f.1, f.2)) =
      lookupEntry t fields := by
  induction fields with
  | nil => rfl
  | cons f fields ih => rw [List.map_cons, lookupEntry, lookupEntry, ih, Datum.beq_text]

end OrderedMap

namespace OptionName

theorem ofText?_eq_some_iff {s : String} {name : OptionName} :
    ofText? s = some name ↔ s = name.text := by
  constructor
  · intro h
    have := List.find?_some h
    exact (eq_of_beq this).symm
  · rintro rfl
    cases name <;> rfl

end OptionName

namespace Options

/-! ## Filling in -/

/-- Options are the same when the values of all names are. -/
theorem ext_get {o o' : Options} (h : ∀ name, o.get name = o'.get name) : o = o' := by
  obtain ⟨debug, strict, cache, package, flags⟩ := o
  obtain ⟨debug', strict', cache', package', flags'⟩ := o'
  rw [Options.mk.injEq]
  exact ⟨h .debug, h .strict, h .cache, h .package, h .flags⟩

/-- The value that an option has with these entries: the given one, or else this one. -/
def filledValue (entries : List (Datum × Datum)) (name : OptionName) (otherwise : Datum) : Datum :=
  match OrderedMap.lookupEntry (.text name.text) entries with
  | some given => settled name given
  | none => otherwise

theorem get_foldl_filled (entries : List (Datum × Datum)) (name : OptionName)
    (names : List OptionName) (o : Options) :
    (names.foldl
      (fun o name =>
        match OrderedMap.lookupEntry (.text name.text) entries with
        | some given => o.set name (settled name given)
        | none => o)
      o).get name =
      if name ∈ names then filledValue entries name (o.get name) else o.get name := by
  induction names generalizing o with
  | nil => rfl
  | cons other names ih =>
      rw [List.foldl_cons, ih]
      by_cases hname : name = other
      · subst hname
        rw [if_pos List.mem_cons_self, filledValue, filledValue]
        cases OrderedMap.lookupEntry (.text name.text) entries with
        | some given => simp
        | none => simp
      · -- filling in another option leaves this one alone
        have hother : ∀ given, (o.set other given).get name = o.get name :=
          fun given => get_set_of_ne o given (Ne.symm hname)
        cases OrderedMap.lookupEntry (.text other.text) entries with
        | some given => simp [hname, hother]
        | none => simp [hname]

theorem get_filled (entries : List (Datum × Datum)) (name : OptionName) :
    (filled entries).get name = filledValue entries name (default.get name) := by
  have hname : name ∈ OptionName.all := by cases name <;> decide
  exact (get_foldl_filled entries name OptionName.all default).trans (if_pos hname)

theorem settled_settled (name : OptionName) (given : Datum) :
    settled name (settled name given) = settled name given := by
  cases name <;> rfl

theorem settled_get_filled (entries : List (Datum × Datum)) (name : OptionName) :
    settled name ((filled entries).get name) = (filled entries).get name := by
  rw [get_filled, filledValue]
  cases OrderedMap.lookupEntry (.text name.text) entries with
  | some given => exact settled_settled name given
  | none => cases name <;> rfl

/-- One more entry changes the option that it names, and nothing else. -/
theorem filled_insertEntry (s : String) (v : Datum) (entries : List (Datum × Datum)) :
    filled (OrderedMap.insertEntry (.text s) v entries) =
      match OptionName.ofText? s with
      | some name => (filled entries).set name (settled name v)
      | none => filled entries := by
  apply ext_get
  intro name
  rw [get_filled, filledValue, OrderedMap.lookupEntry_insertEntry_text]
  -- an entry sets the option that it names and no other one
  by_cases hs : s = name.text
  · rw [if_pos hs, OptionName.ofText?_eq_some_iff.2 hs, get_set_self]
  · rw [if_neg hs, ← filledValue, ← get_filled]
    cases hother : OptionName.ofText? s with
    | none => rfl
    | some other =>
        have hne : other ≠ name := by
          rintro rfl
          exact hs (OptionName.ofText?_eq_some_iff.1 hother)
        rw [get_set_of_ne _ _ hne]

/-! ## Known names -/

theorem mem_unknownKeys {entries : List (Datum × Datum)} {key : Datum} :
    key ∈ unknownKeys entries ↔
      (∃ e ∈ entries, e.1 = key) ∧ key.text?.bind OptionName.ofText? = none := by
  simp [unknownKeys]

/-- The keys of entries are the keys after an insertion, and the key put in. -/
theorem unknownKeys_insertEntry {s : String} {name : OptionName} (v : Datum)
    {entries : List (Datum × Datum)} (hs : OptionName.ofText? s = some name)
    (h : unknownKeys entries = []) :
    unknownKeys (OrderedMap.insertEntry (.text s) v entries) = [] := by
  rw [List.eq_nil_iff_forall_not_mem] at h ⊢
  intro key hkey
  rw [mem_unknownKeys] at hkey
  obtain ⟨⟨e, he, rfl⟩, hunknown⟩ := hkey
  rcases OrderedMap.fst_mem_of_mem_insertEntry he with hnew | ⟨x, hx, hold⟩
  · rw [hnew] at hunknown
    exact absurd hunknown (by simp [Datum.text?, hs])
  · exact h e.1 (mem_unknownKeys.2 ⟨⟨x, hx, hold⟩, hunknown⟩)

theorem ofEntries_eq_ok_iff {entries : List (Datum × Datum)} {o : Options} :
    ofEntries entries = .ok o ↔
      filled entries = o ∧ isCachePlace o.cache = true ∧ unknownKeys entries = [] := by
  rw [ofEntries]
  -- the place of the cache is checked first, the names afterwards
  by_cases hplace : isCachePlace (filled entries).cache = true
  · simp only [if_pos hplace]
    constructor
    · intro h
      cases hkeys : unknownKeys entries with
      | nil =>
          rw [hkeys] at h
          obtain rfl := Except.ok.inj h
          exact ⟨rfl, hplace, rfl⟩
      | cons key keys =>
          rw [hkeys] at h
          obtain ⟨names, -, h⟩ := exists_of_bind_eq_ok h
          exact absurd h (by simp)
    · rintro ⟨rfl, -, hkeys⟩
      rw [hkeys]
  · simp only [if_neg hplace]
    constructor
    · intro h
      exact absurd h (by simp)
    · rintro ⟨rfl, h, -⟩
      exact absurd h hplace

/-! ## Options of an archive -/

/-- The entries of the dictionary of options. -/
def fields (o : Options) : List (Datum × Datum) :=
  OptionName.all.map fun name => (.text name.text, o.get name)

theorem toDatum_eq (o : Options) : o.toDatum = .dict o.fields := by
  rw [toDatum, Datum.ofFields, fields, List.map_map]
  rfl

theorem lookupEntry_fields (o : Options) (name : OptionName) :
    OrderedMap.lookupEntry (.text name.text) o.fields = some (o.get name) := by
  cases name <;> simp [fields, OptionName.all, OptionName.text, OrderedMap.lookupEntry]

theorem unknownKeys_fields (o : Options) : unknownKeys o.fields = [] := rfl

/-- Options that were filled in are filled in from their own dictionary. -/
theorem filled_fields (entries : List (Datum × Datum)) :
    filled (filled entries).fields = filled entries := by
  apply ext_get
  intro name
  rw [get_filled, filledValue, lookupEntry_fields]
  exact settled_get_filled entries name

/-! ## Options given anew -/

theorem entries_foldl_insert_text (anew : Given) (m : OrderedMap Datum Datum) :
    ((anew.map fun e => (Datum.text e.1, e.2)).foldl (fun m e => m.insert e.1 e.2) m).entries =
      Engine.override anew m.entries := by
  induction anew generalizing m with
  | nil => rfl
  | cons e anew ih => exact ih (m.insert (.text e.1) e.2)

/-- Options that are given after others are put in behind them. -/
theorem givenEntries_append (given anew : Given) :
    givenEntries (given ++ anew) = Engine.override anew (givenEntries given) := by
  rw [givenEntries, OrderedMap.ofList, List.map_append, List.foldl_append,
    entries_foldl_insert_text]
  rfl

theorem mem_or_of_lookupEntry_override {s : String} {v : Datum} {anew : Given}
    {entries : List (Datum × Datum)}
    (h : OrderedMap.lookupEntry (.text s) (Engine.override anew entries) = some v) :
    (s, v) ∈ anew ∨ OrderedMap.lookupEntry (.text s) entries = some v := by
  induction anew generalizing entries with
  | nil => exact .inr h
  | cons e anew ih =>
      rcases ih h with hmem | hlookup
      · exact .inl (List.mem_cons_of_mem _ hmem)
      · rw [OrderedMap.lookupEntry_insertEntry_text] at hlookup
        by_cases hs : e.1 = s
        · rw [if_pos hs, Option.some.injEq] at hlookup
          refine .inl (List.mem_cons.2 (.inl ?_))
          rw [← hs, ← hlookup]
        · rw [if_neg hs] at hlookup
          exact .inr hlookup

/-- Nothing is kept in a file unless a value for that is given. -/
theorem cache_of_ofGiven {given : Given} {o : Options} (h : ofGiven given = .ok o)
    (hcache : ∀ v, (OptionName.cache.text, v) ∈ given → v.truthy = false) :
    o.cache.truthy = false := by
  obtain ⟨rfl, -, -⟩ := ofEntries_eq_ok_iff.1 h
  have hvalue : (filled (givenEntries given)).cache =
      filledValue (givenEntries given) .cache (.bool false) :=
    get_filled (givenEntries given) .cache
  rw [hvalue, filledValue]
  cases hlookup : OrderedMap.lookupEntry (.text OptionName.cache.text) (givenEntries given) with
  | none => rfl
  | some v =>
      have hentries : givenEntries given = Engine.override given [] := givenEntries_append [] given
      rw [hentries] at hlookup
      rcases mem_or_of_lookupEntry_override hlookup with hmem | hnone
      · exact hcache v hmem
      · exact absurd hnone (by simp [OrderedMap.lookupEntry])

/-- Every name is one of an option that may be given on loading. -/
def Loadable (anew : Given) : Prop :=
  ∀ e ∈ anew, ∃ name, OptionName.ofText? e.1 = some name ∧ name.isLoadable = true

theorem loadable_iff {anew : Given} : Loadable anew ↔ Engine.refusedNames anew = [] := by
  have hempty : Engine.refusedNames anew = [] ↔
      ∀ e ∈ anew, (OptionName.ofText? e.1).any OptionName.isLoadable = true := by
    rw [List.eq_nil_iff_forall_not_mem]
    simp [Engine.refusedNames]
  rw [hempty]
  constructor
  · intro h e he
    obtain ⟨name, hname, hloadable⟩ := h e he
    simp [hname, hloadable]
  · intro h e he
    simpa [Option.any_eq_true] using h e he

theorem Loadable.tail {e : String × Datum} {anew : Given} (h : Loadable (e :: anew)) :
    Loadable anew :=
  fun x hx => h x (List.mem_cons_of_mem _ hx)

/-- What is given anew decides, whatever entries the other options were filled in from. -/
theorem filled_override {anew : Given} {entries others : List (Datum × Datum)}
    (h : filled entries = filled others) :
    filled (Engine.override anew entries) = filled (Engine.override anew others) := by
  induction anew generalizing entries others with
  | nil => exact h
  | cons e anew ih =>
      refine ih ?_
      rw [filled_insertEntry, filled_insertEntry, h]

theorem unknownKeys_override {anew : Given} (hanew : Loadable anew)
    {entries : List (Datum × Datum)} (h : unknownKeys entries = []) :
    unknownKeys (Engine.override anew entries) = [] := by
  induction anew generalizing entries with
  | nil => exact h
  | cons e anew ih =>
      obtain ⟨name, hname, -⟩ := hanew e List.mem_cons_self
      exact ih hanew.tail (unknownKeys_insertEntry e.2 hname h)

/-- An option that may not be given anew keeps its value. -/
theorem get_filled_override {anew : Given} (hanew : Loadable anew) {name : OptionName}
    (hname : name.isLoadable = false) (entries : List (Datum × Datum)) :
    (filled (Engine.override anew entries)).get name = (filled entries).get name := by
  induction anew generalizing entries with
  | nil => rfl
  | cons e anew ih =>
      obtain ⟨other, hother, hloadable⟩ := hanew e List.mem_cons_self
      have hne : other ≠ name := by
        rintro rfl
        exact absurd hloadable (by simp [hname])
      refine (ih hanew.tail (OrderedMap.insertEntry (.text e.1) e.2 entries)).trans ?_
      rw [filled_insertEntry, hother, get_set_of_ne _ _ hne]

/-- Options that are put into the dictionary of others are those that are given together, if they
may be given on loading at all. An option that may not be given then keeps its value. -/
theorem ofEntries_override {given anew : Given} {o : Options} (hgiven : ofGiven given = .ok o)
    (hanew : Loadable anew) :
    ∃ o', ofEntries (Engine.override anew o.fields) = .ok o' ∧ ofGiven (given ++ anew) = .ok o' ∧
      ∀ name, name.isLoadable = false → o'.get name = o.get name := by
  obtain ⟨rfl, hplace, hknown⟩ := ofEntries_eq_ok_iff.1 hgiven
  have hkept : ∀ name, name.isLoadable = false →
      (filled (Engine.override anew (givenEntries given))).get name =
        (filled (givenEntries given)).get name :=
    fun name hname => get_filled_override hanew hname _
  have hcache : isCachePlace (filled (Engine.override anew (givenEntries given))).cache = true := by
    have := hkept .cache rfl
    rw [get, get] at this
    rwa [this]
  -- it makes no difference whether the defaults are filled in before or after
  have hfilled : filled (Engine.override anew (filled (givenEntries given)).fields) =
      filled (Engine.override anew (givenEntries given)) :=
    filled_override (filled_fields _)
  refine ⟨filled (Engine.override anew (givenEntries given)), ?_, ?_, hkept⟩
  · exact ofEntries_eq_ok_iff.2
      ⟨hfilled, hcache, unknownKeys_override hanew (unknownKeys_fields _)⟩
  · rw [ofGiven, givenEntries_append]
    exact ofEntries_eq_ok_iff.2 ⟨rfl, hcache, unknownKeys_override hanew hknown⟩

/-- Without options given anew, the dictionary of options gives the options back. -/
theorem ofEntries_fields {entries : List (Datum × Datum)} {o : Options}
    (h : ofEntries entries = .ok o) : ofEntries o.fields = .ok o := by
  obtain ⟨rfl, hplace, -⟩ := ofEntries_eq_ok_iff.1 h
  exact ofEntries_eq_ok_iff.2 ⟨filled_fields _, hplace, unknownKeys_fields _⟩

end Options

end Predictive
