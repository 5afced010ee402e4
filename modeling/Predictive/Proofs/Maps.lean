import Predictive.Grouping
import Mathlib.Data.List.Induction

/-!
# Lists, ordered maps and groups

A look-up finds exactly the entries of a map (`get?_eq_some_iff`), a map made of entries with
distinct keys has just these entries (`entries_ofList`), and the group under a key holds the elements
with that key in their order (`getD_get?_foldl_append`). `Extends` says that a map has all entries of
another one; `ExtendsOff` leaves one key out of that.
-/

set_option autoImplicit false

namespace Predictive

universe u v w

/-! ## Lists -/

/-- An element of a list that consists of two parts stands in one of them. -/
theorem cut_of_append_cons_eq {α : Type u} {front after before rest : List α} {x : α}
    (h : front ++ x :: after = before ++ rest) :
    (∃ between, before = front ++ x :: between ∧ after = between ++ rest) ∨
      ∃ between, front = before ++ between ∧ rest = between ++ x :: after := by
  rcases List.append_eq_append_iff.1 h with ⟨between, hb, hr⟩ | ⟨between, hf, hr⟩
  · cases between with
    | nil =>
        -- the element is the first one of the second part
        refine .inr ⟨[], ?_, ?_⟩
        · simpa using hb.symm
        · simpa using hr.symm
    | cons y between =>
        rw [List.cons_append, List.cons.injEq] at hr
        obtain ⟨rfl, hr⟩ := hr
        exact .inl ⟨between, hb, hr⟩
  · exact .inr ⟨between, hf, hr⟩

namespace OrderedMap

variable {α : Type u} {β : Type v} [BEq α]

/-! ## Extension -/

/-- Every entry of the first map is one of the second. -/
def Extends (m n : OrderedMap α β) : Prop :=
  ∀ k v, m.get? k = some v → n.get? k = some v

/-- Every entry of the first map is one of the second, but the value at `x` may have changed. -/
def ExtendsOff (x : α) (m n : OrderedMap α β) : Prop :=
  (∀ k v, k ≠ x → m.get? k = some v → n.get? k = some v) ∧
    ∀ v, m.get? x = some v → ∃ w, n.get? x = some w

theorem Extends.refl (m : OrderedMap α β) : m.Extends m := fun _ _ h => h

theorem Extends.trans {m n o : OrderedMap α β} (h : m.Extends n) (k : n.Extends o) :
    m.Extends o :=
  fun l v hl => k l v (h l v hl)

theorem ExtendsOff.refl (x : α) (m : OrderedMap α β) : m.ExtendsOff x m :=
  ⟨fun _ _ _ h => h, fun v h => ⟨v, h⟩⟩

theorem ExtendsOff.trans {x : α} {m n o : OrderedMap α β} (h : m.ExtendsOff x n)
    (k : n.ExtendsOff x o) : m.ExtendsOff x o := by
  refine ⟨fun l v hx hl => k.1 l v hx (h.1 l v hx hl), ?_⟩
  intro v hv
  obtain ⟨w, hw⟩ := h.2 v hv
  exact k.2 w hw

theorem Extends.off {m n : OrderedMap α β} (x : α) (h : m.Extends n) : m.ExtendsOff x n :=
  ⟨fun l v _ => h l v, fun v hv => ⟨v, h x v hv⟩⟩

/-- A map that lacks the key extends to whatever extends it off the key. -/
theorem ExtendsOff.extends {m n : OrderedMap α β} {x : α} (h : m.ExtendsOff x n)
    (absent : m.get? x = none) : m.Extends n := by
  intro k v hv
  refine h.1 k v ?_ hv
  rintro rfl
  rw [absent] at hv
  exact absurd hv (by simp)

/-- The keys of a map are keys of what extends it. -/
theorem ExtendsOff.keys {m n : OrderedMap α β} {x k : α} {v : β} (h : m.ExtendsOff x n)
    (hk : m.get? k = some v) : ∃ w, n.get? k = some w := by
  rcases Classical.em (k = x) with rfl | hx
  · exact h.2 v hk
  · exact ⟨v, h.1 k v hx hk⟩

theorem contains_iff {m : OrderedMap α β} {k : α} :
    m.contains k = true ↔ ∃ v, m.get? k = some v := by
  rw [contains, Option.isSome_iff_exists]

/-! ## Maps made of entries -/

theorem insertEntry_of_forall_ne {k : α} {v : β} {es : List (α × β)}
    (h : ∀ e ∈ es, (e.1 == k) = false) : insertEntry k v es = es ++ [(k, v)] := by
  induction es with
  | nil => rfl
  | cons e es ih =>
      unfold insertEntry
      rw [h e List.mem_cons_self, if_neg (by simp), ih fun x hx => h x (List.mem_cons_of_mem _ hx)]
      rfl

theorem entries_foldl_insert (m : OrderedMap α β) (es : List (α × β))
    (h : (m.entries ++ es).Pairwise fun x y => (x.1 == y.1) = false) :
    (es.foldl (fun m e => m.insert e.1 e.2) m).entries = m.entries ++ es := by
  induction es generalizing m with
  | nil => simp
  | cons e es ih =>
      have hnew : ∀ x ∈ m.entries, (x.1 == e.1) = false := fun x hx =>
        (List.pairwise_append.1 h).2.2 x hx e List.mem_cons_self
      have hins : (m.insert e.1 e.2).entries = m.entries ++ [e] :=
        insertEntry_of_forall_ne hnew
      rw [List.foldl_cons, ih, hins, List.append_assoc, List.singleton_append]
      rw [hins, List.append_assoc, List.singleton_append]
      exact h

/-- Entries with distinct keys are the entries of the map made of them. -/
theorem entries_ofList {es : List (α × β)} (h : es.Pairwise fun x y => (x.1 == y.1) = false) :
    (ofList es).entries = es := by
  have := entries_foldl_insert empty es (by simpa [empty] using h)
  simpa [ofList, empty] using this

/-- Maps with the same entries in the same order are one map. -/
theorem eq_of_entries {m n : OrderedMap α β} (h : m.entries = n.entries) : m = n := by
  cases m
  cases n
  obtain rfl := h
  rfl

theorem get?_map {γ : Type w} (f : β → γ) (m : OrderedMap α β) (k : α) :
    (m.map f).get? k = (m.get? k).map f := by
  unfold get? map
  simp only
  induction m.entries with
  | nil => rfl
  | cons e es ih =>
      rw [List.map_cons, lookupEntry, lookupEntry, ih]
      split <;> rfl

variable [LawfulBEq α]

/-! ## Entries and look-ups -/

theorem lookupEntry_eq_some_iff {k : α} {v : β} {es : List (α × β)}
    (h : es.Pairwise fun x y => (x.1 == y.1) = false) :
    lookupEntry k es = some v ↔ (k, v) ∈ es := by
  induction es with
  | nil => simp [lookupEntry]
  | cons e es ih =>
      obtain ⟨l, w⟩ := e
      have hl := (List.pairwise_cons.1 h).1
      unfold lookupEntry
      by_cases hk : l = k
      · -- the keys are distinct, so no entry behind the first one has its key
        subst hk
        simp only [beq_self_eq_true, if_true, Option.some.injEq, List.mem_cons, Prod.mk.injEq,
          true_and]
        constructor
        · intro hw
          exact .inl hw.symm
        · rintro (hw | hmem)
          · exact hw.symm
          · have := hl _ hmem
            simp at this
      · simp only [beq_eq_false_iff_ne.2 hk, Bool.false_eq_true, if_false, List.mem_cons,
          Prod.mk.injEq, ih (List.pairwise_cons.1 h).2]
        constructor
        · intro hmem
          exact .inr hmem
        · rintro (⟨hk', -⟩ | hmem)
          · exact absurd hk'.symm hk
          · exact hmem

/-- A look-up finds exactly the entries. -/
theorem get?_eq_some_iff {m : OrderedMap α β} {k : α} {v : β} :
    m.get? k = some v ↔ (k, v) ∈ m.entries :=
  lookupEntry_eq_some_iff m.distinct

theorem mem_values_iff {m : OrderedMap α β} {v : β} : v ∈ m.values ↔ ∃ k, m.get? k = some v := by
  simp [values, get?_eq_some_iff]

theorem mem_keys_iff {m : OrderedMap α β} {k : α} : k ∈ m.keys ↔ ∃ v, m.get? k = some v := by
  simp [keys, get?_eq_some_iff]

theorem get?_insert [DecidableEq α] (m : OrderedMap α β) (k l : α) (v : β) :
    (m.insert k v).get? l = if k = l then some v else m.get? l := by
  by_cases h : k = l
  · subst h
    rw [get?_insert_self, if_pos rfl]
  · rw [get?_insert_of_ne m v h, if_neg h]

omit [BEq α] [LawfulBEq α] in
/-- Entries whose keys are the first keys of other entries, and which all are among these, are the
first ones of them. -/
theorem prefix_of_keys {es fs : List (α × β)} (keys : es.map (·.1) <+: fs.map (·.1))
    (members : ∀ e ∈ es, e ∈ fs) (distinct : (fs.map (·.1)).Nodup) : es <+: fs := by
  induction es generalizing fs with
  | nil => exact List.nil_prefix
  | cons e es ih =>
      cases fs with
      | nil => exact absurd (members e List.mem_cons_self) (by simp)
      | cons f fs =>
          rw [List.map_cons, List.map_cons, List.cons_prefix_cons] at keys
          rw [List.map_cons, List.nodup_cons] at distinct
          obtain ⟨hkey, keys⟩ := keys
          -- an entry with the first key is the first one
          have first : ∀ x ∈ f :: fs, x.1 = f.1 → x = f := by
            intro x hx hxf
            rcases List.mem_cons.1 hx with hx | hx
            · exact hx
            · exact absurd (List.mem_map.2 ⟨x, hx, hxf⟩) distinct.1
          rw [first e (members e List.mem_cons_self) hkey, List.cons_prefix_cons]
          refine ⟨rfl, ih keys (fun x hx => ?_) distinct.2⟩
          refine (List.mem_cons.1 (members x (List.mem_cons_of_mem _ hx))).resolve_left ?_
          rintro rfl
          exact distinct.1 (keys.subset (List.mem_map.2 ⟨x, hx, rfl⟩))

/-- The entries of a map are the first ones of whatever extends it behind its keys. -/
theorem Extends.entries_prefix {m n : OrderedMap α β} (h : m.Extends n)
    (keys : m.keys <+: n.keys) : m.entries <+: n.entries := by
  apply prefix_of_keys keys _ n.nodup_keys
  rintro ⟨k, v⟩ he
  exact get?_eq_some_iff.1 (h k v (get?_eq_some_iff.2 he))

/-! ## Insertions extend -/

theorem extendsOff_insert [DecidableEq α] (m : OrderedMap α β) (x : α) (v : β) :
    m.ExtendsOff x (m.insert x v) := by
  refine ⟨?_, fun _ _ => ⟨v, get?_insert_self m x v⟩⟩
  intro k w hk hw
  rw [get?_insert_of_ne m v (Ne.symm hk)]
  exact hw

theorem extends_insert [DecidableEq α] {m : OrderedMap α β} {x : α} (v : β)
    (h : m.get? x = none) : m.Extends (m.insert x v) := by
  intro k w hw
  have hk : x ≠ k := by
    rintro rfl
    rw [h] at hw
    exact absurd hw (by simp)
  rw [get?_insert_of_ne m v hk]
  exact hw

end OrderedMap

/-! ## Groups -/

section Groups

variable {α : Type u} {κ : Type v} {β : Type w} [BEq κ] [LawfulBEq κ] [DecidableEq κ]

/-- The group under `k` as a list, empty if there is none. -/
theorem getD_get?_append (groups : OrderedMap κ (List β)) (k l : κ) (v : β) :
    ((groups.append k v).get? l).getD [] =
      (groups.get? l).getD [] ++ if k = l then [v] else [] := by
  unfold OrderedMap.append
  rw [OrderedMap.get?_insert]
  by_cases h : k = l
  · subst h
    simp
  · simp [h]

/-- Appending elements one by one puts those with a key at the end of its group. -/
theorem getD_get?_foldl_append (key : α → κ) (value : α → β) (groups : OrderedMap κ (List β))
    (k : κ) (xs : List α) :
    ((xs.foldl (fun groups x => groups.append (key x) (value x)) groups).get? k).getD [] =
      (groups.get? k).getD [] ++ (xs.filter fun x => key x = k).map value := by
  induction xs generalizing groups with
  | nil => simp
  | cons x xs ih =>
      rw [List.foldl_cons, ih, getD_get?_append]
      by_cases h : key x = k <;> simp [h]

end Groups

/-! ## Distinct elements -/

section Distinct

variable {α : Type u} [BEq α] [LawfulBEq α]

theorem mem_distinctFrom {seen xs : List α} {x : α} :
    x ∈ distinctFrom seen xs ↔ x ∈ xs ∧ x ∉ seen := by
  induction xs generalizing seen with
  | nil => simp [distinctFrom]
  | cons y ys ih =>
      unfold distinctFrom
      by_cases hy : y ∈ seen
      · -- an element that has been seen is left out
        rw [if_pos (by simpa using hy), ih, List.mem_cons]
        constructor
        · rintro ⟨hys, hs⟩
          exact ⟨.inr hys, hs⟩
        · rintro ⟨rfl | hys, hs⟩
          · exact absurd hy hs
          · exact ⟨hys, hs⟩
      · rw [if_neg (by simpa using hy), List.mem_cons, ih, List.mem_cons, List.mem_cons]
        constructor
        · rintro (rfl | ⟨hys, hs⟩)
          · exact ⟨.inl rfl, hy⟩
          · exact ⟨.inr hys, fun h => hs (.inr h)⟩
        · rintro ⟨rfl | hys, hs⟩
          · exact .inl rfl
          · rcases Classical.em (x = y) with rfl | hxy
            · exact .inl rfl
            · exact .inr ⟨hys, fun h => h.elim hxy hs⟩

theorem nodup_distinctFrom (seen xs : List α) : (distinctFrom seen xs).Nodup := by
  induction xs generalizing seen with
  | nil => simp [distinctFrom]
  | cons y ys ih =>
      unfold distinctFrom
      split
      · exact ih seen
      · refine List.nodup_cons.2 ⟨fun h => ?_, ih _⟩
        exact (mem_distinctFrom.1 h).2 List.mem_cons_self

@[simp] theorem mem_distinct {xs : List α} {x : α} : x ∈ distinct xs ↔ x ∈ xs := by
  simp [distinct, mem_distinctFrom]

theorem nodup_distinct (xs : List α) : (distinct xs).Nodup :=
  nodup_distinctFrom [] xs

theorem distinctFrom_concat (seen xs : List α) (x : α) :
    distinctFrom seen (xs ++ [x]) =
      if x ∈ seen ∨ x ∈ xs then distinctFrom seen xs else distinctFrom seen xs ++ [x] := by
  induction xs generalizing seen with
  | nil => simp [distinctFrom]
  | cons y ys ih =>
      rw [List.cons_append, distinctFrom, distinctFrom]
      by_cases hy : y ∈ seen
      · -- an element that has been seen counts among those
        have also : x ∈ seen ∨ x ∈ y :: ys ↔ x ∈ seen ∨ x ∈ ys := by
          rw [List.mem_cons]
          constructor
          · rintro (hs | rfl | hys)
            · exact .inl hs
            · exact .inl hy
            · exact .inr hys
          · exact Or.imp_right .inr
        simp only [List.contains_iff_mem.2 hy, if_true, ih, also]
      · have moved : x ∈ y :: seen ∨ x ∈ ys ↔ x ∈ seen ∨ x ∈ y :: ys := by
          rw [List.mem_cons, List.mem_cons, or_assoc, or_left_comm]
        have unseen : seen.contains y = false := by simpa using hy
        simp only [unseen, Bool.false_eq_true, if_false, ih, moved]
        split <;> rfl

/-- One more element goes to the end, unless it is there already. -/
theorem distinct_concat (xs : List α) (x : α) :
    distinct (xs ++ [x]) = if x ∈ xs then distinct xs else distinct xs ++ [x] := by
  simp [distinct, distinctFrom_concat]

/-- What comes before an element among the distinct ones covers what comes before it for the first
time. -/
theorem exists_append_of_distinct {xs front back : List α} {x : α}
    (h : distinct xs = front ++ x :: back) :
    ∃ before after, xs = before ++ x :: after ∧ ∀ y ∈ before, y ∈ front := by
  induction xs using List.reverseRecOn generalizing back with
  | nil => exact absurd h (by simp [distinct, distinctFrom])
  | append_singleton xs y ih =>
      -- an element found before the last one has the same elements before it
      have earlier (back : List α) (h : distinct xs = front ++ x :: back) :
          ∃ before after, xs ++ [y] = before ++ x :: after ∧ ∀ y ∈ before, y ∈ front := by
        obtain ⟨before, after, rfl, hbefore⟩ := ih h
        exact ⟨before, after ++ [y], by simp, hbefore⟩
      rw [distinct_concat] at h
      by_cases hy : y ∈ xs
      · rw [if_pos hy] at h
        exact earlier back h
      · rw [if_neg hy] at h
        rcases List.eq_nil_or_concat back with rfl | ⟨back, z, rfl⟩
        · obtain ⟨hfront, hlast⟩ := List.append_inj' h rfl
          obtain rfl := List.singleton_inj.1 hlast
          refine ⟨xs, [], rfl, ?_⟩
          intro z hz
          rw [← hfront, mem_distinct]
          exact hz
        · rw [List.concat_eq_append, ← List.cons_append, ← List.append_assoc] at h
          exact earlier back (List.append_inj' h rfl).1

end Distinct

/-! ## Maps made of entries whose keys come again -/

namespace OrderedMap

variable {α : Type u} {β : Type v} [DecidableEq α]

theorem ofList_concat (es : List (α × β)) (e : α × β) :
    ofList (es ++ [e]) = (ofList es).insert e.1 e.2 := by
  rw [ofList, ofList, List.foldl_append, List.foldl_cons, List.foldl_nil]

/-- The keys stand in the order in which they come for the first time. -/
theorem keys_ofList (es : List (α × β)) : (ofList es).keys = Predictive.distinct (es.map (·.1)) := by
  induction es using List.reverseRecOn with
  | nil => rfl
  | append_singleton es e ih =>
      have hcontains : (ofList es).contains e.1 = true ↔ e.1 ∈ es.map (·.1) := by
        rw [contains_iff, ← mem_keys_iff, ih, mem_distinct]
      rw [ofList_concat, keys_insert, List.map_append, List.map_singleton, distinct_concat, ih]
      simp only [hcontains]

/-- The entry is the last one under its key. -/
def IsLast (es : List (α × β)) (e : α × β) : Prop :=
  ∃ front back, es = front ++ e :: back ∧ ∀ e' ∈ back, e'.1 ≠ e.1

omit [DecidableEq α] in
theorem IsLast.mem {es : List (α × β)} {e : α × β} (h : IsLast es e) : e ∈ es := by
  rcases h with ⟨front, back, rfl, -⟩
  simp

/-- The values are those that come last under their keys. -/
theorem isLast_of_mem_ofList {es : List (α × β)} {e : α × β} (h : e ∈ (ofList es).entries) :
    IsLast es e := by
  induction es using List.reverseRecOn with
  | nil => exact absurd h (by simp [ofList, empty])
  | append_singleton es last ih =>
      have hget : (ofList (es ++ [last])).get? e.1 = some e.2 := get?_eq_some_iff.2 h
      rw [ofList_concat, get?_insert] at hget
      -- the last entry wins for its own key and leaves the others as they are
      by_cases hkey : last.1 = e.1
      · rw [if_pos hkey] at hget
        obtain rfl : last = e := Prod.ext hkey (Option.some.inj hget)
        exact ⟨es, [], rfl, by simp⟩
      · rw [if_neg hkey] at hget
        obtain ⟨front, back, hes, hback⟩ := ih (get?_eq_some_iff.1 hget)
        refine ⟨front, back ++ [last], by rw [hes]; simp, ?_⟩
        intro e' he'
        rcases List.mem_append.1 he' with he' | he'
        · exact hback e' he'
        · rw [List.mem_singleton.1 he']
          exact hkey

/-- An entry of the map has for its key the key of an entry that comes first under it, and all keys
that come earlier stand before it in the map. -/
theorem exists_first_of_ofList {es front back : List (α × β)} {e : α × β}
    (h : (ofList es).entries = front ++ e :: back) :
    ∃ before v after, es = before ++ (e.1, v) :: after ∧
      ∀ e' ∈ before, e'.1 ∈ front.map (·.1) := by
  have hkeys : Predictive.distinct (es.map (·.1)) = front.map (·.1) ++ e.1 :: back.map (·.1) := by
    rw [← keys_ofList, keys, h, List.map_append, List.map_cons]
  obtain ⟨before, after, hes, hbefore⟩ := exists_append_of_distinct hkeys
  obtain ⟨before, rest, rfl, rfl, hrest⟩ := List.map_eq_append_iff.1 hes
  obtain ⟨⟨k, v⟩, after, rfl, rfl, rfl⟩ := List.map_eq_cons_iff.1 hrest
  refine ⟨before, v, after, rfl, ?_⟩
  intro e' he'
  exact hbefore e'.1 (List.mem_map_of_mem he')

end OrderedMap

end Predictive
