import Predictive.Proofs.GivenOptions

/-!
# Reading what was written

Where no record may stand, what is read from an archive is the value itself (`Archive.eq_of_revive`).
Productions come back as they were written (`Archive.revive_productionsDatum`), and so do the rows of a
table, if they can be read (`Archive.eq_of_toRows`). A value that was read is written again as it was,
if no dictionary in it has the key that marks a record and its sets hold no collections
(`Archive.plain_revive`). The members of a set are not looked into when they are written, so a tuple
among them stays one, and becomes a list only when what was read is written again.
-/

set_option autoImplicit false

namespace Predictive.Archive

open OrderedMap (lookupEntry)

/-! ## Where no record may stand -/

/-- A dictionary without the key of a record is read entry by entry. -/
theorem revive_dict_of_none {known : Bool} {entries : List (Datum × Datum)}
    (h : lookupEntry (.text recordKey) entries = none) :
    revive known (.dict entries) =
      collected (reviveEntries known entries) >>= fun es => .ok (.dict es) := by
  rw [revive, h]

/-- A dictionary with the key of a record is a production, or it cannot be read. -/
theorem revive_dict_of_some {known : Bool} {entries : List (Datum × Datum)} {kind d : Datum}
    (hkind : lookupEntry (.text recordKey) entries = some kind)
    (h : revive known (.dict entries) = .ok d) :
    known = true ∧ production (reviveEntries false entries) = .ok d := by
  rw [revive, hkind] at h
  by_cases hproduction : (known && kind == .text (kindName .production)) = true
  · rw [Bool.and_eq_true] at hproduction
    simp only [hproduction, Bool.and_self, if_true] at h
    exact ⟨hproduction.1, h⟩
  · simp only [if_neg hproduction] at h
    by_cases hkey : kind.isKey = true
    · exact absurd h (by simp [hkey])
    · exact absurd h (by simp [hkey])

mutual

/-- What is read where no record may stand is the value itself. -/
theorem eq_of_revive : ∀ {d r : Datum}, revive false d = .ok r → r = d
  | .dict entries, r, h => by
      cases hkind : lookupEntry (.text recordKey) entries with
      | some kind =>
          -- it looks like a record, so it would not have been read
          exact absurd (revive_dict_of_some hkind h).1 (by simp)
      | none =>
          rw [revive_dict_of_none hkind] at h
          obtain ⟨es, hes, h⟩ := exists_of_bind_eq_ok h
          rw [← Except.ok.inj h, eq_of_reviveEntries hes]
  | .list items, r, h => by
      rw [revive] at h
      obtain ⟨ys, hys, h⟩ := exists_of_bind_eq_ok h
      rw [← Except.ok.inj h, eq_of_reviveItems hys]
  | .null, r, h | .bool _, r, h | .int _, r, h | .real _, r, h | .text _, r, h | .tuple _, r, h
  | .set _ _, r, h | .production _ _ _, r, h | .grammar _ _, r, h | .file _, r, h => by
      rw [revive] at h
      · exact (Except.ok.inj h).symm
      all_goals simp

/-- The items that are read where no record may stand are the items themselves. -/
theorem eq_of_reviveItems : ∀ {xs ys : List Datum}, reviveItems false xs = .ok ys → ys = xs
  | [], ys, h => (Except.ok.inj h).symm
  | x :: xs, ys, h => by
      rw [reviveItems] at h
      obtain ⟨y, hy, h⟩ := exists_of_bind_eq_ok h
      obtain ⟨zs, hzs, h⟩ := exists_of_bind_eq_ok h
      rw [← Except.ok.inj h, eq_of_revive hy, eq_of_reviveItems hzs]

/-- The entries that are read where no record may stand are the entries themselves. -/
theorem eq_of_reviveEntries :
    ∀ {es fs : List (Datum × Datum)}, collected (reviveEntries false es) = .ok fs → fs = es
  | [], fs, h => (Except.ok.inj h).symm
  | e :: es, fs, h => by
      rw [reviveEntries, collected] at h
      obtain ⟨v, hv, h⟩ := exists_of_bind_eq_ok h
      obtain ⟨gs, hgs, h⟩ := exists_of_bind_eq_ok h
      rw [← Except.ok.inj h, eq_of_reviveEntries hgs]
      obtain ⟨k, d⟩ := e
      rw [reviveEntry] at hv ⊢
      rw [eq_of_revive hv]

end

/-! ## What is written is plain -/

theorem plainEntries_eq_map (es : List (Datum × Datum)) :
    plainEntries es = es.map fun e => (e.1, plain e.2) := by
  induction es with
  | nil => rfl
  | cons e es ih => rw [plainEntries, ih, List.map_cons, plainEntry]

theorem plain_ofFields (fields : List (String × Datum)) :
    plain (.ofFields fields) = .ofFields (fields.map fun f => (f.1, plain f.2)) := by
  rw [Datum.ofFields, plain, plainEntries_eq_map, Datum.ofFields, List.map_map, List.map_map]
  rfl

/-- The entries of the record of a production. -/
def productionEntries (number lhs : Datum) (rhs : List Datum) : List (Datum × Datum) :=
  [(.text "number", number), (.text "lhs", lhs), (.text "rhs", .list rhs),
    (.text recordKey, .text (kindName .production))]

theorem plain_production (number lhs : Datum) (rhs : List Datum) :
    plain (.production number lhs rhs) =
      .dict (productionEntries (plain number) (plain lhs) (plainItems rhs)) := by
  rw [plain]
  rfl

/-! ## Values that last -/

/-- The value is no collection, no production and no grammar. -/
def isAtom : Datum → Bool
  | .null => true
  | .bool _ => true
  | .int _ => true
  | .real _ => true
  | .text _ => true
  | .file _ => true
  | _ => false

mutual

/-- No dictionary in the value has the key that marks a record, the members of sets and the parts of
productions are atoms, and it holds no grammar. -/
def steady : Datum → Bool
  | .list items => steadyItems items
  | .tuple items => steadyItems items
  | .set _ members => members.all isAtom
  | .dict entries => (lookupEntry (.text recordKey) entries).isNone && steadyEntries entries
  | .production number lhs rhs => isAtom number && isAtom lhs && rhs.all isAtom
  | .grammar _ _ => false
  | _ => true

/-- All items are steady. -/
def steadyItems : List Datum → Bool
  | [] => true
  | x :: xs => steady x && steadyItems xs

/-- The values of all entries are steady. -/
def steadyEntries : List (Datum × Datum) → Bool
  | [] => true
  | e :: es => steadyEntry e && steadyEntries es

/-- The value of the entry is steady. -/
def steadyEntry : Datum × Datum → Bool
  | (_, v) => steady v

end

/-! ### Atoms and keys -/

theorem plain_of_isAtom {d : Datum} (h : isAtom d = true) : plain d = d := by
  cases d with
  | null | bool b | int n | real x | text s | file s => rw [plain]
  | _ => exact absurd h (by simp [isAtom])

theorem plainItems_of_atoms {xs : List Datum} (h : ∀ x ∈ xs, isAtom x = true) :
    plainItems xs = xs := by
  induction xs with
  | nil => rfl
  | cons x xs ih =>
      rw [List.forall_mem_cons] at h
      rw [plainItems, plain_of_isAtom h.1, ih h.2]

theorem areArchivable_iff {xs : List Datum} :
    areArchivable xs = true ↔ ∀ x ∈ xs, isArchivable x = true := by
  induction xs with
  | nil => simp [areArchivable]
  | cons x xs ih => simp [areArchivable, ih]

theorem isArchivable_of_isAtom {d : Datum} (h : isAtom d = true) : isArchivable d = true := by
  cases d with
  | null | bool b | int n | real x | text s | file s => rfl
  | _ => exact absurd h (by simp [isAtom])

theorem isKey_of_isAtom {d : Datum} (h : isAtom d = true) : d.isKey = true := by
  cases d with
  | null | bool b | int n | real x | text s | file s => rfl
  | _ => exact absurd h (by simp [isAtom])

/-- What can be a key is read as it stands. -/
theorem revive_of_isKey (known : Bool) {d : Datum} (h : d.isKey = true) :
    revive known d = .ok d := by
  cases d with
  | list items | dict entries => exact absurd h (by simp [Datum.isKey])
  | _ => rw [revive] <;> simp

theorem reviveItems_of_keys (known : Bool) {xs : List Datum} (h : ∀ x ∈ xs, x.isKey = true) :
    reviveItems known xs = .ok xs := by
  induction xs with
  | nil => rfl
  | cons x xs ih =>
      rw [List.forall_mem_cons] at h
      rw [reviveItems, revive_of_isKey known h.1, ih h.2]
      rfl

/-! ### Members of sets -/

theorem mem_of_insertOrdered? {s x : Datum} {xs found : List Datum}
    (h : Unchecked.insertOrdered? s xs = some found) (hx : x ∈ found) : x = s ∨ x ∈ xs := by
  induction xs generalizing found with
  | nil =>
      obtain rfl := Option.some.inj h
      exact .inl (List.mem_singleton.1 hx)
  | cons t rest ih =>
      rw [Unchecked.insertOrdered?] at h
      obtain ⟨before, -, h⟩ := Option.bind_eq_some_iff.1 h
      cases before with
      | true =>
          obtain rfl := Option.some.inj h
          exact List.mem_cons.1 hx
      | false =>
          -- the symbol goes somewhere into the rest
          obtain ⟨others, hothers, h⟩ := Option.bind_eq_some_iff.1 h
          obtain rfl := Option.some.inj h
          rcases List.mem_cons.1 hx with rfl | hx
          · exact .inr List.mem_cons_self
          · exact (ih hothers hx).imp_right (List.mem_cons_of_mem t)

theorem mem_of_ordered {x : Datum} {members sorted : List Datum}
    (h : Unchecked.ordered members = .ok sorted) (hx : x ∈ sorted) : x ∈ members := by
  rw [Unchecked.ordered] at h
  split at h
  · next found hfound =>
      obtain rfl := Except.ok.inj h
      clear h
      induction members generalizing found with
      | nil =>
          obtain rfl := Option.some.inj hfound
          exact hx
      | cons s members ih =>
          rw [List.foldrM_cons] at hfound
          obtain ⟨others, hothers, hinsert⟩ := Option.bind_eq_some_iff.1 hfound
          rcases mem_of_insertOrdered? hinsert hx with rfl | hx
          · exact List.mem_cons_self
          · exact List.mem_cons_of_mem s (ih others hothers hx)
  · exact absurd h (by simp)

/-- A set is written with its own members only. -/
theorem mem_of_listed {x : Datum} {members : List Datum} (h : x ∈ listed members) :
    x ∈ members := by
  rw [listed] at h
  split at h
  · next sorted hsorted => exact mem_of_ordered hsorted h
  · exact h

/-- Writing leaves the keys of a dictionary as they are. -/
theorem lookupEntry_plainEntries_isNone (key : Datum) (es : List (Datum × Datum)) :
    (lookupEntry key (plainEntries es)).isNone = (lookupEntry key es).isNone := by
  induction es with
  | nil => rfl
  | cons e es ih =>
      obtain ⟨k, v⟩ := e
      rw [plainEntries, plainEntry, lookupEntry, lookupEntry]
      by_cases hk : (k == key) = true
      · rw [if_pos hk, if_pos hk]
        rfl
      · rw [if_neg hk, if_neg hk, ih]

/-! ## Records -/

theorem within_eq_ok_iff {α : Type} {kind : RecordKind} {x : Except Failure α} {a : α} :
    within kind x = .ok a ↔ x = .ok a := by
  cases x with
  | ok b => rfl
  | error failure => cases failure <;> simp [within]

/-- A field of a record, looked up by its name. -/
theorem fieldOf_record {kind name : String} {fields : List (String × Datum)} {v : Datum}
    (h : lookupEntry name (fields ++ [(recordKey, .text kind)]) = some v) :
    fieldOf (record kind fields) name = .ok v := by
  rw [record, Datum.ofFields, fieldOf, Datum.field?, OrderedMap.lookupEntry_text, h]

/-- What a field of a record holds is what can be read where it was written. -/
theorem revive_of_readField {kind : RecordKind} {known : Bool} {name type : String}
    {fields : List (String × Datum)} {v r : Datum}
    (hfield : lookupEntry name (fields ++ [(recordKey, .text type)]) = some v)
    (h : readField kind known (record type fields) name = .ok r) : revive known v = .ok r := by
  rw [readField, within_eq_ok_iff, fieldOf_record hfield] at h
  exact h

theorem lookupEntry_productionEntries (number lhs : Datum) (rhs : List Datum) :
    lookupEntry (.text recordKey) (productionEntries number lhs rhs) =
      some (.text (kindName .production)) := by
  simp [lookupEntry, recordKey, productionEntries]

/-- A production that is read has the parts that its record holds, which can be keys. -/
theorem production_eq_ok_iff {number lhs d : Datum} {rhs : List Datum} :
    production (reviveEntries false (productionEntries number lhs rhs)) = .ok d ↔
      revive false number = .ok number ∧ revive false lhs = .ok lhs ∧
        reviveItems false rhs = .ok rhs ∧
        (number.isKey && lhs.isKey && Datum.areKeys rhs) = true ∧
        d = .production number lhs rhs := by
  have hnumber : partOf (reviveEntries false (productionEntries number lhs rhs)) "number" =
      within .production (revive false number) := by
    simp [productionEntries, reviveEntries, reviveEntry, partOf, lookupEntry]
  have hlhs : partOf (reviveEntries false (productionEntries number lhs rhs)) "lhs" =
      within .production (revive false lhs) := by
    simp [productionEntries, reviveEntries, reviveEntry, partOf, lookupEntry]
  have hrhs : partOf (reviveEntries false (productionEntries number lhs rhs)) "rhs" =
      within .production (revive false (.list rhs)) := by
    simp [productionEntries, reviveEntries, reviveEntry, partOf, lookupEntry]
  rw [production, hnumber, hlhs, hrhs]
  constructor
  · intro h
    obtain ⟨n, hn, h⟩ := exists_of_bind_eq_ok h
    obtain ⟨l, hl, h⟩ := exists_of_bind_eq_ok h
    obtain ⟨r, hr, h⟩ := exists_of_bind_eq_ok h
    -- the class is named in the failures only, so what succeeds is what the parts give
    rw [within_eq_ok_iff] at hn hl hr
    obtain rfl := eq_of_revive hn
    obtain rfl := eq_of_revive hl
    obtain rfl := eq_of_revive hr
    rw [revive] at hr
    obtain ⟨items, hitems, -⟩ := exists_of_bind_eq_ok hr
    rw [eq_of_reviveItems hitems] at hitems
    simp only [Datum.items?] at h
    by_cases hkeys : (n.isKey && l.isKey && Datum.areKeys rhs) = true
    · rw [if_pos hkeys] at h
      exact ⟨hn, hl, hitems, hkeys, (Except.ok.inj h).symm⟩
    · rw [if_neg hkeys] at h
      exact absurd h (by simp)
  · rintro ⟨hn, hl, hr, hkeys, rfl⟩
    have hlist : revive false (.list rhs) = .ok (.list rhs) := by
      rw [revive, hr]
      rfl
    rw [hn, hl, hlist]
    exact if_pos hkeys

mutual

/-- What can be read of a steady value is written again as the value was. -/
theorem plain_revive : ∀ {d r : Datum}, steady d = true → revive true (plain d) = .ok r →
    plain r = plain d ∧ isArchivable r = true
  | .dict entries, r, hd, h => by
      -- the keys are written as they are, so what is written does not look like a record either
      rw [steady, Bool.and_eq_true, ← lookupEntry_plainEntries_isNone, Option.isNone_iff_eq_none]
        at hd
      rw [plain, revive_dict_of_none hd.1] at h
      obtain ⟨es, hes, h⟩ := exists_of_bind_eq_ok h
      obtain ⟨same, archivable⟩ := plain_reviveEntries hd.2 hes
      rw [← Except.ok.inj h, plain, plain, same, isArchivable]
      exact ⟨rfl, archivable⟩
  | .list items, r, hd, h | .tuple items, r, hd, h => by
      rw [steady] at hd
      rw [plain, revive] at h
      obtain ⟨ys, hys, h⟩ := exists_of_bind_eq_ok h
      obtain ⟨same, archivable⟩ := plain_reviveItems hd hys
      rw [← Except.ok.inj h, plain, plain, same, isArchivable]
      exact ⟨rfl, archivable⟩
  | .set frozen members, r, hd, h => by
      -- the members are written, read and written again as they are
      rw [steady, List.all_eq_true] at hd
      have atoms : ∀ x ∈ listed members, isAtom x = true := fun x hx => hd x (mem_of_listed hx)
      rw [plain, revive, reviveItems_of_keys true fun x hx => isKey_of_isAtom (atoms x hx)] at h
      rw [← Except.ok.inj h, plain, plain, plainItems_of_atoms atoms, isArchivable,
        areArchivable_iff]
      exact ⟨rfl, fun x hx => isArchivable_of_isAtom (atoms x hx)⟩
  | .production number lhs rhs, r, hd, h => by
      -- no record may stand in a part of a production, so the parts come back as they were written
      simp only [steady, Bool.and_eq_true, List.all_eq_true] at hd
      obtain ⟨⟨hnumber, hlhs⟩, hrhs⟩ := hd
      rw [plain_production, plain_of_isAtom hnumber, plain_of_isAtom hlhs,
        plainItems_of_atoms hrhs] at h ⊢
      obtain ⟨-, h⟩ := revive_dict_of_some (lookupEntry_productionEntries _ _ _) h
      obtain ⟨-, -, -, -, rfl⟩ := production_eq_ok_iff.1 h
      rw [plain_production, plain_of_isAtom hnumber, plain_of_isAtom hlhs,
        plainItems_of_atoms hrhs, isArchivable, isArchivable_of_isAtom hnumber,
        isArchivable_of_isAtom hlhs, areArchivable_iff.2 fun x hx => isArchivable_of_isAtom (hrhs x hx)]
      exact ⟨rfl, rfl⟩
  | .grammar lines archive, r, hd, _ => absurd hd (by simp [steady])
  | .null, r, _, h | .bool _, r, _, h | .int _, r, _, h | .real _, r, _, h | .text _, r, _, h
  | .file _, r, _, h => by
      rw [plain, revive] at h
      · rw [← Except.ok.inj h]
        exact ⟨rfl, rfl⟩
      all_goals simp

theorem plain_reviveItems : ∀ {xs ys : List Datum}, steadyItems xs = true →
    reviveItems true (plainItems xs) = .ok ys →
    plainItems ys = plainItems xs ∧ areArchivable ys = true
  | [], ys, _, h => by
      rw [← Except.ok.inj h]
      exact ⟨rfl, rfl⟩
  | x :: xs, ys, hxs, h => by
      rw [steadyItems, Bool.and_eq_true] at hxs
      rw [plainItems, reviveItems] at h
      obtain ⟨y, hy, h⟩ := exists_of_bind_eq_ok h
      obtain ⟨zs, hzs, h⟩ := exists_of_bind_eq_ok h
      obtain ⟨first, harchive⟩ := plain_revive hxs.1 hy
      obtain ⟨rest, harchives⟩ := plain_reviveItems hxs.2 hzs
      rw [← Except.ok.inj h, plainItems, plainItems, first, rest, areArchivable, harchive, harchives]
      exact ⟨rfl, rfl⟩

theorem plain_reviveEntries : ∀ {es fs : List (Datum × Datum)}, steadyEntries es = true →
    collected (reviveEntries true (plainEntries es)) = .ok fs →
    plainEntries fs = plainEntries es ∧ entriesArchivable fs = true
  | [], fs, _, h => by
      rw [← Except.ok.inj h]
      exact ⟨rfl, rfl⟩
  | (k, v) :: es, fs, hes, h => by
      rw [steadyEntries, steadyEntry, Bool.and_eq_true] at hes
      rw [plainEntries, plainEntry, reviveEntries, reviveEntry, collected] at h
      obtain ⟨w, hw, h⟩ := exists_of_bind_eq_ok h
      obtain ⟨gs, hgs, h⟩ := exists_of_bind_eq_ok h
      obtain ⟨first, harchive⟩ := plain_revive hes.1 hw
      obtain ⟨rest, harchives⟩ := plain_reviveEntries hes.2 hgs
      rw [← Except.ok.inj h, plainEntries, plainEntries, plainEntry, plainEntry, first, rest,
        entriesArchivable, entryArchivable, harchive, harchives]
      exact ⟨rfl, rfl⟩

end

/-! ## Checked grammars and tables -/

open Unchecked.Grammar (productionDatum productionsDatum)

theorem plainItems_text (ss : List String) : plainItems (ss.map .text) = ss.map .text := by
  induction ss with
  | nil => rfl
  | cons s ss ih => rw [List.map_cons, plainItems, plain, ih]

theorem reviveItems_text (known : Bool) (ss : List String) :
    reviveItems known (ss.map .text) = .ok (ss.map .text) := by
  induction ss with
  | nil => rfl
  | cons s ss ih =>
      rw [List.map_cons, reviveItems, ih]
      rfl

theorem areKeys_text (ss : List String) : Datum.areKeys (ss.map .text) = true := by
  induction ss with
  | nil => rfl
  | cons s ss ih =>
      rw [List.map_cons, Datum.areKeys, ih]
      rfl

theorem texts?_text (ss : List String) : Datum.texts? (ss.map .text) = some ss := by
  induction ss with
  | nil => rfl
  | cons s ss ih =>
      rw [List.map_cons, Datum.texts?, ih]
      rfl

theorem revive_productionDatum (p : Production) :
    revive true (plain (productionDatum p)) = .ok (productionDatum p) := by
  have hread : production (reviveEntries false
      (productionEntries (.int p.number) (.text p.lhs) (p.rhs.map .text))) =
        .ok (.production (.int p.number) (.text p.lhs) (p.rhs.map .text)) :=
    production_eq_ok_iff.2 ⟨by rw [revive] <;> simp, by rw [revive] <;> simp,
      reviveItems_text false p.rhs, areKeys_text p.rhs, rfl⟩
  rw [productionDatum, plain_production, plainItems_text, plain, plain, revive,
    lookupEntry_productionEntries]
  simp only [Bool.true_and, Datum.beq_text, beq_self_eq_true, if_true]
  exact hread

/-- The productions of a grammar come back as they were. -/
theorem revive_productionsDatum (productions : OrderedMap Int Production) :
    revive true (plain (productionsDatum productions)) = .ok (productionsDatum productions) := by
  rw [productionsDatum, plain, plainEntries_eq_map, List.map_map]
  -- the keys are numbers, so none of them is the mark of a record
  have hnone : ∀ es : List (Int × Production), lookupEntry (.text recordKey)
      (es.map fun e => (Datum.int e.1, plain (productionDatum e.2))) = none := by
    intro es
    induction es with
    | nil => rfl
    | cons e es ih =>
        rw [List.map_cons, lookupEntry, if_neg, ih]
        simp [Datum.beq_text_iff]
  have hread : ∀ es : List (Int × Production), collected (reviveEntries true
      (es.map fun e => (Datum.int e.1, plain (productionDatum e.2)))) =
        .ok (es.map fun e => (Datum.int e.1, productionDatum e.2)) := by
    intro es
    induction es with
    | nil => rfl
    | cons e es ih =>
        rw [List.map_cons, reviveEntries, reviveEntry, collected, revive_productionDatum, ih]
        rfl
  refine (revive_dict_of_none (hnone productions.entries)).trans ?_
  rw [hread]
  rfl

theorem exists_of_production_eq_ok {parts : List (Datum × Except Failure Datum)} {d : Datum}
    (h : production parts = .ok d) : ∃ number lhs rhs, d = .production number lhs rhs := by
  rw [production] at h
  obtain ⟨number, -, h⟩ := exists_of_bind_eq_ok h
  obtain ⟨lhs, -, h⟩ := exists_of_bind_eq_ok h
  obtain ⟨r, -, h⟩ := exists_of_bind_eq_ok h
  cases hrhs : r.items? with
  | none =>
      rw [hrhs] at h
      exact absurd h (by simp)
  | some rhs =>
      simp only [hrhs] at h
      by_cases hkeys : (number.isKey && lhs.isKey && Datum.areKeys rhs) = true
      · rw [if_pos hkeys] at h
        exact ⟨number, lhs, rhs, (Except.ok.inj h).symm⟩
      · rw [if_neg hkeys] at h
        exact absurd h (by simp)

/-- The lexical rules of a grammar come back as they were, or as a production. -/
theorem eq_or_production_of_revive {l : Lexicon} {r : Datum}
    (h : revive true (plain l.toDatum) = .ok r) :
    r = l.toDatum ∨ ∃ number lhs rhs, r = .production number lhs rhs := by
  cases l with
  | inferred => exact .inl (Except.ok.inj h).symm
  | declared rules =>
      have hread : ∀ es : List (String × Symbol), collected (reviveEntries true
          (es.map fun e => (Datum.text e.1, Datum.text e.2))) =
            .ok (es.map fun e => (Datum.text e.1, Datum.text e.2)) := by
        intro es
        induction es with
        | nil => rfl
        | cons e es ih =>
            rw [List.map_cons, reviveEntries, reviveEntry, collected, ih]
            rfl
      rw [Lexicon.toDatum, Lexicon.entries?, Lexicon.rulesDatum, plain, plainEntries_eq_map,
        List.map_map] at h
      change revive true (.dict (rules.entries.map fun e => (.text e.1, .text e.2))) = .ok r at h
      cases hkind : lookupEntry (.text recordKey)
          (rules.entries.map fun e => (Datum.text e.1, Datum.text e.2)) with
      | none =>
          rw [revive_dict_of_none hkind, hread] at h
          exact .inl (Except.ok.inj h).symm
      | some kind =>
          -- a pattern is the key of a record
          exact .inr (exists_of_production_eq_ok (revive_dict_of_some hkind h).2)

theorem plain_toDatum (t : ParseTable) : plain t.toDatum = t.toDatum := by
  have hcell : ∀ row : TableRow, plain (.ofFields (row.entries.map fun c => (c.1, .int c.2))) =
      .ofFields (row.entries.map fun c => (c.1, .int c.2)) := by
    intro row
    rw [plain_ofFields, List.map_map]
    rfl
  rw [ParseTable.toDatum, plain_ofFields, List.map_map]
  exact congrArg Datum.ofFields (List.map_congr_left fun r _ => congrArg (r.1, ·) (hcell r.2))

/-- The rows of a table come back as they were, if they can be read. -/
theorem eq_of_toRows {t : ParseTable} {rows : Datum} (h : toRows (ofTable t) = .ok rows) :
    rows = t.toDatum := by
  rw [toRows, ofTable, tableRecord] at h
  have hfield := revive_of_readField (v := plain t.toDatum) (by simp [lookupEntry]) h
  rw [eq_of_revive hfield, plain_toDatum]

/-! ## Grammars and tables that are checked again -/

theorem production?_productionDatum (p : Production) :
    Unchecked.Grammar.production? (productionDatum p) = some p := by
  rw [productionDatum, Unchecked.Grammar.production?, texts?_text]
  rfl

theorem numbered?_map (es : List (Int × Production)) :
    Unchecked.Grammar.numbered? (es.map fun e => (.int e.1, productionDatum e.2)) = some es := by
  induction es with
  | nil => rfl
  | cons e es ih =>
      rw [List.map_cons, Unchecked.Grammar.numbered?, production?_productionDatum, ih]
      rfl

theorem ofList_entries {α β : Type} [BEq α] (m : OrderedMap α β) :
    OrderedMap.ofList m.entries = m := by
  obtain ⟨entries, distinct⟩ := m
  have := OrderedMap.entries_ofList distinct
  cases hm : OrderedMap.ofList entries
  rw [hm] at this
  subst this
  rfl

theorem textRules?_map (es : List (String × Symbol)) :
    Lexicon.textRules? (es.map fun e => (.text e.1, .text e.2)) = some es := by
  induction es with
  | nil => rfl
  | cons e es ih =>
      rw [List.map_cons, Lexicon.textRules?, ih]
      rfl

theorem ofValue?_toDatum (l : Lexicon) : Lexicon.ofValue? l.toDatum = some l := by
  cases l with
  | inferred => rfl
  | declared rules =>
      rw [Lexicon.toDatum, Lexicon.entries?, Lexicon.rulesDatum, Lexicon.ofValue?,
        Lexicon.ofEntries?, textRules?_map, Option.map_some, ofList_entries]

theorem cells?_map (es : List (Symbol × Int)) :
    Unchecked.Table.cells? (es.map fun c => (.text c.1, .int c.2)) = some es := by
  induction es with
  | nil => rfl
  | cons c es ih =>
      rw [List.map_cons, Unchecked.Table.cells?, ih]
      rfl

theorem rows?_map (rows : List (Symbol × TableRow)) :
    Unchecked.Table.rows?
      (rows.map fun r => (.text r.1, .dict (r.2.entries.map fun c => (.text c.1, .int c.2)))) =
        some (rows.map fun r => (r.1, r.2.entries)) := by
  induction rows with
  | nil => rfl
  | cons r rows ih =>
      rw [List.map_cons, Unchecked.Table.rows?, cells?_map, ih]
      rfl

/-- The value of a table is of the right kind. -/
theorem checked?_toDatum (t : ParseTable) : Unchecked.Table.checked? t.toDatum = some t := by
  have hrows : t.toDatum = .dict (t.rows.entries.map fun r =>
      (.text r.1, .dict (r.2.entries.map fun c => (.text c.1, .int c.2)))) := by
    simp [ParseTable.toDatum, Datum.ofFields, Function.comp_def]
  have hinner : t.rows.entries.map (fun r => (r.1, OrderedMap.ofList r.2.entries)) =
      t.rows.entries := by
    refine (List.map_congr_left fun r _ => ?_).trans (List.map_id _)
    exact congrArg (r.1, ·) (ofList_entries r.2)
  rw [hrows, Unchecked.Table.checked?, rows?_map, Option.map_some, ParseTable.ofRows, List.map_map]
  exact congrArg (fun rows => some (ParseTable.mk rows))
    ((congrArg OrderedMap.ofList hinner).trans (ofList_entries t.rows))

/-! ## Archives of grammars -/

theorem entriesArchivable_iff {es : List (Datum × Datum)} :
    entriesArchivable es = true ↔ ∀ e ∈ es, isArchivable e.2 = true := by
  induction es with
  | nil => simp [entriesArchivable]
  | cons e es ih =>
      obtain ⟨k, v⟩ := e
      simp [entriesArchivable, entryArchivable, ih]

/-- What a grammar holds beside the values that it was read from can always be archived. -/
theorem isArchivable_parts (g : Grammar) :
    isArchivable (productionsDatum g.productions) = true ∧
      isArchivable g.lexicon.toDatum = true := by
  constructor
  · rw [productionsDatum, isArchivable, entriesArchivable_iff, List.forall_mem_map]
    intro e _
    have texts : areArchivable (e.2.rhs.map .text) = true := by
      rw [areArchivable_iff, List.forall_mem_map]
      exact fun _ _ => rfl
    rw [productionDatum, isArchivable, texts]
    rfl
  · cases g.lexicon with
    | inferred => rfl
    | declared rules =>
        rw [Lexicon.toDatum, Lexicon.entries?, Lexicon.rulesDatum, isArchivable,
          entriesArchivable_iff, List.forall_mem_map]
        exact fun _ _ => rfl

theorem ofUnchecked_eq_ok_iff {u : Unchecked.Grammar} {d : Datum} :
    ofUnchecked u = .ok d ↔
      areArchivable [u.productions, u.start, u.lexicon, u.source.rules, u.source.lexicon] = true ∧
        d = grammarRecord u := by
  rw [ofUnchecked]
  split
  · next h => simp [h, eq_comm]
  · next h => simp [h]

/-- A grammar has an archive exactly if the values that it was read from can be archived. -/
theorem ofGrammar_eq_ok_iff {g : Grammar} {d : Datum} :
    ofGrammar g = .ok d ↔
      (isArchivable g.source.rules = true ∧ isArchivable g.source.lexicon = true) ∧
        d = grammarRecord (.ofChecked g) := by
  obtain ⟨hproductions, hlexicon⟩ := isArchivable_parts g
  have hstart : isArchivable (.text g.start) = true := rfl
  rw [ofGrammar, ofUnchecked_eq_ok_iff]
  simp only [areArchivable, Unchecked.Grammar.ofChecked, hproductions, hstart, hlexicon,
    Bool.true_and, Bool.and_true, Bool.and_eq_true]

/-- What is read of the record of an unchecked grammar is what can be read of each of its values. -/
theorem revive_of_toUnchecked {u v : Unchecked.Grammar} (h : toUnchecked (grammarRecord u) = .ok v) :
    revive true (plain u.productions) = .ok v.productions ∧
      revive true (plain u.start) = .ok v.start ∧
      revive true (plain u.lexicon) = .ok v.lexicon ∧
      revive true (plain u.source.rules) = .ok v.source.rules ∧
      revive true (plain u.source.lexicon) = .ok v.source.lexicon := by
  rw [grammarRecord, toUnchecked] at h
  obtain ⟨productions, hproductions, h⟩ := exists_of_bind_eq_ok h
  obtain ⟨start, hstart, h⟩ := exists_of_bind_eq_ok h
  obtain ⟨lexicon, hlexicon, h⟩ := exists_of_bind_eq_ok h
  obtain ⟨rules, hrules, h⟩ := exists_of_bind_eq_ok h
  obtain ⟨lexical, hlexical, h⟩ := exists_of_bind_eq_ok h
  obtain rfl := Except.ok.inj h
  exact ⟨revive_of_readField rfl hproductions, revive_of_readField rfl hstart,
    revive_of_readField rfl hlexicon, revive_of_readField rfl hrules,
    revive_of_readField rfl hlexical⟩

/-- What is read of the record of a grammar: the productions and the start symbol as they were, and
the rest as far as no record was taken for it. -/
theorem of_toUnchecked {g : Grammar} {u : Unchecked.Grammar}
    (h : toUnchecked (grammarRecord (.ofChecked g)) = .ok u) :
    u.productions = productionsDatum g.productions ∧ u.start = .text g.start ∧
      revive true (plain g.lexicon.toDatum) = .ok u.lexicon ∧
      revive true (plain g.source.rules) = .ok u.source.rules ∧
      revive true (plain g.source.lexicon) = .ok u.source.lexicon := by
  obtain ⟨hproductions, hstart, hrest⟩ := revive_of_toUnchecked h
  have hproductions := (revive_productionsDatum g.productions).symm.trans hproductions
  exact ⟨(Except.ok.inj hproductions).symm, (Except.ok.inj hstart).symm, hrest⟩

/-- A grammar has the archive of another one if it differs only in the values it was read from, and
those are what can be read of the others, which are steady. -/
theorem ofGrammar_of_revive {g : Grammar} {source : Source} {d : Datum}
    (archived : ofGrammar g = .ok d)
    (hrules : revive true (plain g.source.rules) = .ok source.rules)
    (hlexicon : revive true (plain g.source.lexicon) = .ok source.lexicon)
    (srules : steady g.source.rules = true) (slexicon : steady g.source.lexicon = true) :
    ofGrammar { g with source := source } = .ok d := by
  obtain ⟨-, rfl⟩ := ofGrammar_eq_ok_iff.1 archived
  obtain ⟨sameRules, rulesArchivable⟩ := plain_revive srules hrules
  obtain ⟨sameLexicon, lexiconArchivable⟩ := plain_revive slexicon hlexicon
  refine ofGrammar_eq_ok_iff.2 ⟨⟨rulesArchivable, lexiconArchivable⟩, ?_⟩
  simp only [grammarRecord, Unchecked.Grammar.ofChecked, sameRules, sameLexicon]

/-- A grammar that was read with lexical rules is the grammar that was written, up to the values it
was made of. -/
theorem checked?_of_toUnchecked {g : Grammar} {u : Unchecked.Grammar}
    (h : toUnchecked (grammarRecord (.ofChecked g)) = .ok u) (hlexicon : u.lexicon = g.lexicon.toDatum) :
    u.checked? = some { g with source := u.source } := by
  obtain ⟨hproductions, hstart, -⟩ := of_toUnchecked h
  obtain ⟨productions, start, lexicon, source⟩ := u
  subst hproductions hstart hlexicon
  simp only [Unchecked.Grammar.checked?, productionsDatum, numbered?_map, ofValue?_toDatum,
    Option.bind_eq_bind, Option.bind_some, ofList_entries]

end Predictive.Archive
