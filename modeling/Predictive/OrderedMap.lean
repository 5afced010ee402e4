/-!
# Finite maps that keep their order

A map from keys to values that remembers the order in which its keys first came in. Giving a present
key a new value keeps the place of the key and the key itself; an absent one goes to the end. Each
key occurs once, which the type carries in `distinct`.

`get?_insert_self` and `get?_insert_of_ne` say what an insertion does to look-ups, and
`keys_insert` what it does to the order.
-/

set_option autoImplicit false

namespace Predictive

universe u v w

/-- A finite map with its entries in the order of first insertion. -/
structure OrderedMap (α : Type u) (β : Type v) [BEq α] where
  entries : List (α × β)
  distinct : entries.Pairwise fun x y => (x.1 == y.1) = false

namespace OrderedMap

variable {α : Type u} {β : Type v} [BEq α]

/-! ## Entry lists -/

/-- The value of the first entry with the key. -/
def lookupEntry (k : α) : List (α × β) → Option β
  | [] => none
  | e :: es => if e.1 == k then some e.2 else lookupEntry k es

/-- The entries with a new value at the key, at the end if the key is new. -/
def insertEntry (k : α) (v : β) : List (α × β) → List (α × β)
  | [] => [(k, v)]
  | e :: es => if e.1 == k then (e.1, v) :: es else e :: insertEntry k v es

theorem fst_mem_of_mem_insertEntry {k : α} {v : β} {es : List (α × β)} {x : α × β}
    (h : x ∈ insertEntry k v es) : x.1 = k ∨ ∃ y ∈ es, y.1 = x.1 := by
  induction es with
  | nil => simp [insertEntry] at h; exact .inl (by rw [h])
  | cons e es ih =>
      unfold insertEntry at h
      split at h
      · cases List.mem_cons.1 h with
        | inl h => exact .inr ⟨e, List.mem_cons_self, by rw [h]⟩
        | inr h => exact .inr ⟨x, List.mem_cons_of_mem _ h, rfl⟩
      · cases List.mem_cons.1 h with
        | inl h => exact .inr ⟨e, List.mem_cons_self, by rw [h]⟩
        | inr h =>
            cases ih h with
            | inl h => exact .inl h
            | inr h =>
                obtain ⟨y, hy, hyx⟩ := h
                exact .inr ⟨y, List.mem_cons_of_mem _ hy, hyx⟩

theorem pairwise_insertEntry {k : α} {v : β} {es : List (α × β)}
    (h : es.Pairwise fun x y => (x.1 == y.1) = false) :
    (insertEntry k v es).Pairwise fun x y => (x.1 == y.1) = false := by
  induction es with
  | nil => simp [insertEntry]
  | cons e es ih =>
      have he := (List.pairwise_cons.1 h).1
      have hes := (List.pairwise_cons.1 h).2
      unfold insertEntry
      split
      · exact List.pairwise_cons.2 ⟨fun y hy => he y hy, hes⟩
      · next hk =>
          refine List.pairwise_cons.2 ⟨fun y hy => ?_, ih hes⟩
          cases fst_mem_of_mem_insertEntry hy with
          | inl h => rw [h]; simpa using hk
          | inr h =>
              obtain ⟨z, hz, hzy⟩ := h
              rw [← hzy]; exact he z hz

/-! ## The operations -/

/-- The map without entries. -/
def empty : OrderedMap α β := ⟨[], List.Pairwise.nil⟩

instance : EmptyCollection (OrderedMap α β) := ⟨empty⟩

instance : Inhabited (OrderedMap α β) := ⟨empty⟩

instance [Repr α] [Repr β] : Repr (OrderedMap α β) := ⟨fun m n => reprPrec m.entries n⟩

/-- The value at a key. -/
def get? (m : OrderedMap α β) (k : α) : Option β := lookupEntry k m.entries

/-- Whether the key has a value. -/
def contains (m : OrderedMap α β) (k : α) : Bool := (m.get? k).isSome

/-- The map with a new value at the key. -/
def insert (m : OrderedMap α β) (k : α) (v : β) : OrderedMap α β :=
  ⟨insertEntry k v m.entries, pairwise_insertEntry m.distinct⟩

/-- The map without the key. -/
def erase (m : OrderedMap α β) (k : α) : OrderedMap α β :=
  ⟨m.entries.filter fun e => !(e.1 == k), m.distinct.filter _⟩

/-- The keys in their order. -/
def keys (m : OrderedMap α β) : List α := m.entries.map (·.1)

/-- The values in the order of their keys. -/
def values (m : OrderedMap α β) : List β := m.entries.map (·.2)

/-- The number of keys. -/
def size (m : OrderedMap α β) : Nat := m.entries.length

/-- Inserts the entries from left to right, so the last value of a repeated key stays. -/
def ofList (es : List (α × β)) : OrderedMap α β :=
  es.foldl (fun m e => m.insert e.1 e.2) empty

/-- The map with every value changed by a function. -/
def map {γ : Type w} (f : β → γ) (m : OrderedMap α β) : OrderedMap α γ :=
  ⟨m.entries.map fun e => (e.1, f e.2), by
    refine List.pairwise_map.2 ?_
    exact m.distinct⟩

/-- Whether two maps have the same keys with equal values, in any order. -/
def sameEntries [BEq β] (m n : OrderedMap α β) : Bool :=
  m.size == n.size && m.entries.all fun e =>
    match n.get? e.1 with
    | some v => e.2 == v
    | none => false

/-! ## Look-ups and order after an insertion -/

@[simp] theorem get?_empty (k : α) : (empty : OrderedMap α β).get? k = none := rfl

theorem get?_insert_self [ReflBEq α] (m : OrderedMap α β) (k : α) (v : β) :
    (m.insert k v).get? k = some v := by
  unfold get? insert
  simp only
  induction m.entries with
  | nil => simp [insertEntry, lookupEntry]
  | cons e es ih =>
      unfold insertEntry
      split
      · next h => simp [lookupEntry, h]
      · next h => simp only [lookupEntry, h, Bool.false_eq_true, if_false]; exact ih

theorem get?_insert_of_ne [LawfulBEq α] (m : OrderedMap α β) {k l : α} (v : β) (h : k ≠ l) :
    (m.insert k v).get? l = m.get? l := by
  unfold get? insert
  simp only
  induction m.entries with
  | nil => simp [insertEntry, lookupEntry, h]
  | cons e es ih =>
      unfold insertEntry
      split
      · next hk =>
          have : ¬ e.1 = l := fun hl => h ((eq_of_beq hk).symm.trans hl)
          simp [lookupEntry, this]
      · simp only [lookupEntry]; rw [ih]

/-- An insertion keeps the order of the keys, and a new key goes to the end. -/
theorem keys_insert (m : OrderedMap α β) (k : α) (v : β) :
    (m.insert k v).keys = if m.contains k then m.keys else m.keys ++ [k] := by
  unfold keys contains get? insert
  simp only
  induction m.entries with
  | nil => simp [insertEntry, lookupEntry]
  | cons e es ih =>
      unfold insertEntry lookupEntry
      split
      · simp
      · simp only [List.map_cons, ih]
        split <;> simp

/-- No key occurs twice. -/
theorem nodup_keys [ReflBEq α] (m : OrderedMap α β) : m.keys.Nodup := by
  unfold keys
  refine List.pairwise_map.2 (m.distinct.imp ?_)
  intro x y h e
  rw [e] at h
  simp at h

end OrderedMap

end Predictive
