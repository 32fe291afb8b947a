/-!
A table holds at most one value for each id, in the order in which the ids were
first inserted.
-/
namespace ProcessChart

structure Table (α : Type) where
  entries : List (String × α)
deriving Repr

namespace Table

variable {α : Type}

def empty : Table α := ⟨[]⟩

def get? (t : Table α) (id : String) : Option α := t.entries.lookup id

def contains (t : Table α) (id : String) : Bool := (t.get? id).isSome

def keys (t : Table α) : List String := t.entries.map (·.1)

/-- The entry keeps its place when the id already has one. -/
def insertEntry (id : String) (a : α) : List (String × α) → List (String × α)
  | [] => [(id, a)]
  | (k, b) :: rest => if k = id then (k, a) :: rest else (k, b) :: insertEntry id a rest

def insert (t : Table α) (id : String) (a : α) : Table α := ⟨insertEntry id a t.entries⟩

/-- An id that already has a value keeps it. -/
def insertNew (t : Table α) (id : String) (a : α) : Table α :=
  if t.contains id then t else t.insert id a

/-- The last of two pairs with the same id wins. -/
def ofPairs (pairs : List (String × α)) : Table α :=
  pairs.foldl (fun t e => t.insert e.1 e.2) empty

/-- All entries, by increasing id. -/
def sorted (t : Table α) : List (String × α) :=
  t.entries.mergeSort fun a b => a.1 ≤ b.1

@[simp] theorem get?_empty (id : String) : (empty : Table α).get? id = none := rfl

theorem lookup_cons_ite (k j : String) (b : α) (rest : List (String × α)) :
    ((j, b) :: rest).lookup k = if k = j then some b else rest.lookup k := by
  by_cases h : k = j
  · simp [h]
  · rw [List.lookup_cons, beq_false_of_ne h, if_neg h]

theorem lookup_insertEntry (id k : String) (a : α) (entries : List (String × α)) :
    (insertEntry id a entries).lookup k = if k = id then some a else entries.lookup k := by
  induction entries with
  | nil => simp [insertEntry, lookup_cons_ite]
  | cons e rest ih =>
    obtain ⟨j, b⟩ := e
    by_cases hj : j = id
    · by_cases hk : k = id <;> simp [insertEntry, lookup_cons_ite, hj, hk]
    · by_cases hk : k = id
      · subst hk
        simp [insertEntry, lookup_cons_ite, hj, ih, Ne.symm hj]
      · simp [insertEntry, lookup_cons_ite, hj, hk, ih]

@[simp] theorem get?_insert (t : Table α) (id k : String) (a : α) :
    (t.insert id a).get? k = if k = id then some a else t.get? k :=
  lookup_insertEntry id k a t.entries

theorem contains_insert (t : Table α) (id k : String) (a : α) :
    (t.insert id a).contains k = (k = id || t.contains k) := by
  by_cases h : k = id <;> simp [contains, h]

theorem get?_insertNew (t : Table α) (id k : String) (a : α) :
    (t.insertNew id a).get? k =
      if k = id ∧ t.contains id = false then some a else t.get? k := by
  unfold insertNew
  by_cases hc : t.contains id = true
  · simp [hc]
  · have hf : t.contains id = false := Bool.eq_false_iff.mpr hc
    simp [hf]

theorem get?_foldl_insert (ids : List String) (value : String → α) (t : Table α) (x : String) :
    ((ids.map fun id => (id, value id)).foldl (fun t e => t.insert e.1 e.2) t).get? x =
      if x ∈ ids then some (value x) else t.get? x := by
  induction ids generalizing t with
  | nil => rfl
  | cons id ids ih =>
    rw [List.map_cons, List.foldl_cons, ih, get?_insert]
    by_cases hx : x = id
    · subst hx
      simp
    · simp [hx]

theorem get?_ofPairs (ids : List String) (value : String → α) (x : String) :
    (ofPairs (ids.map fun id => (id, value id))).get? x =
      if x ∈ ids then some (value x) else none :=
  get?_foldl_insert ids value empty x

theorem mem_of_get?_eq_some {t : Table α} {id : String} {a : α} (h : t.get? id = some a) :
    (id, a) ∈ t.entries := by
  obtain ⟨before, after, heq, -⟩ := List.lookup_eq_some_iff.mp h
  rw [heq]
  exact List.mem_append_right _ List.mem_cons_self

theorem contains_iff_mem_keys {t : Table α} {id : String} :
    t.contains id = true ↔ id ∈ t.keys := by
  rw [contains, get?, List.lookup_isSome_iff, keys, List.mem_map]
  exact exists_congr fun e => and_congr_right fun _ => beq_iff_eq.trans eq_comm

theorem insertEntry_of_new {id : String} (a : α) {entries : List (String × α)}
    (h : id ∉ entries.map (·.1)) : insertEntry id a entries = entries ++ [(id, a)] := by
  induction entries with
  | nil => rfl
  | cons e rest ih =>
    obtain ⟨hne, hrest⟩ : id ≠ e.1 ∧ id ∉ rest.map (·.1) := by simpa using h
    rw [insertEntry, if_neg (Ne.symm hne), ih hrest, List.cons_append]

/-- A new id takes the last place. -/
theorem entries_insert {t : Table α} {id : String} (a : α) (h : t.contains id = false) :
    (t.insert id a).entries = t.entries ++ [(id, a)] := by
  have hnew : id ∉ t.keys := by
    rw [← contains_iff_mem_keys, h]
    exact Bool.false_ne_true
  exact insertEntry_of_new a hnew

theorem mem_keys_insert {t : Table α} {id x : String} (a : α) :
    x ∈ (t.insert id a).keys ↔ x = id ∨ x ∈ t.keys := by
  rw [← contains_iff_mem_keys, ← contains_iff_mem_keys, contains_insert]
  simp

end Table

end ProcessChart
