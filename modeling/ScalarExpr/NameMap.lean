/-!
# Maps from names

A map binds each of its names once, and holds them in increasing order, by code points. Two maps
with the same bindings are therefore the same map, and a list of its bindings has one order only.
-/

namespace ScalarExpr

/-- Bindings in increasing order of their names. -/
structure NameMap (α : Type) where
  bindings : List (String × α)
  sorted : bindings.Pairwise (·.1 < ·.1)

namespace NameMap

variable {α : Type}

/-- Two maps with the same list of bindings are equal. -/
theorem ext {a b : NameMap α} (h : a.bindings = b.bindings) : a = b := by
  cases a; cases b; cases h; rfl

/-- The map without bindings. -/
def empty : NameMap α := ⟨[], .nil⟩

instance : EmptyCollection (NameMap α) := ⟨empty⟩

/-- The number of names. -/
def size (map : NameMap α) : Nat := map.bindings.length

/-- The value that a list of bindings gives a name. -/
def lookup (name : String) : List (String × α) → Option α
  | [] => none
  | (key, value) :: rest => if key = name then some value else lookup name rest

/-- The value of a name, if it is bound. -/
def find? (map : NameMap α) (name : String) : Option α := lookup name map.bindings

/-- Puts a binding where its name belongs, in place of one of the same name. -/
def place (name : String) (value : α) : List (String × α) → List (String × α)
  | [] => [(name, value)]
  | (key, old) :: rest =>
    if name < key then (name, value) :: (key, old) :: rest
    else if name = key then (name, value) :: rest
    else (key, old) :: place name value rest

/-- Placing a binding brings in no other. -/
theorem mem_place {name : String} {value : α} {entry : String × α} {list : List (String × α)}
    (h : entry ∈ place name value list) : entry = (name, value) ∨ entry ∈ list := by
  induction list with
  | nil => exact .inl (by simpa [place] using h)
  | cons head rest ih =>
    obtain ⟨key, old⟩ := head
    simp only [place] at h
    split at h
    · simpa using h
    · split at h
      · rcases List.mem_cons.mp h with h | h
        · exact .inl h
        · exact .inr (List.mem_cons_of_mem _ h)
      · rcases List.mem_cons.mp h with h | h
        · exact .inr (h ▸ List.mem_cons_self)
        · exact (ih h).imp id (List.mem_cons_of_mem _)

/-- Placing a binding keeps names in order. -/
theorem sorted_place (name : String) (value : α) {list : List (String × α)}
    (h : list.Pairwise (·.1 < ·.1)) : (place name value list).Pairwise (·.1 < ·.1) := by
  induction list with
  | nil => simp [place]
  | cons head rest ih =>
    obtain ⟨key, old⟩ := head
    obtain ⟨hhead, hrest⟩ := List.pairwise_cons.mp h
    simp only [place]
    split
    · rename_i hlt
      refine List.pairwise_cons.mpr ⟨fun entry hentry => ?_, h⟩
      rcases List.mem_cons.mp hentry with rfl | hentry
      · exact hlt
      · exact String.lt_trans hlt (hhead entry hentry)
    · split
      · rename_i heq
        subst heq
        exact List.pairwise_cons.mpr ⟨hhead, hrest⟩
      · rename_i hnlt hne
        refine List.pairwise_cons.mpr ⟨fun entry hentry => ?_, ih hrest⟩
        rcases mem_place hentry with rfl | hentry
        · exact Std.lt_of_le_of_ne (String.not_lt.mp hnlt) (Ne.symm hne)
        · exact hhead entry hentry

/-- Binds a name, which loses its former value. -/
def insert (map : NameMap α) (name : String) (value : α) : NameMap α :=
  ⟨place name value map.bindings, sorted_place name value map.sorted⟩

/-- Unbinds a name. -/
def erase (map : NameMap α) (name : String) : NameMap α :=
  ⟨map.bindings.filter (·.1 ≠ name), map.sorted.sublist List.filter_sublist⟩

/-- The map that a list of bindings makes; of several with one name the last counts. -/
def ofList (entries : List (String × α)) : NameMap α :=
  entries.foldl (fun map entry => map.insert entry.1 entry.2) empty

/-- A placed name has its new value. -/
theorem lookup_place_self (name : String) (value : α) (list : List (String × α)) :
    lookup name (place name value list) = some value := by
  induction list with
  | nil => simp [place, lookup]
  | cons head rest ih =>
    obtain ⟨key, old⟩ := head
    simp only [place]
    split
    · simp [lookup]
    · split
      · simp [lookup]
      · rename_i hne
        simp [lookup, Ne.symm hne, ih]

/-- Placing one name leaves the others alone. -/
theorem lookup_place_of_ne {name other : String} (value : α) (list : List (String × α))
    (h : other ≠ name) : lookup other (place name value list) = lookup other list := by
  induction list with
  | nil => simp [place, lookup, Ne.symm h]
  | cons head rest ih =>
    obtain ⟨key, old⟩ := head
    simp only [place]
    split
    · simp [lookup, Ne.symm h]
    · split
      · rename_i heq
        subst heq
        simp [lookup, Ne.symm h]
      · simp [lookup, ih]

/-- A bound name has its new value, and the other names keep theirs. -/
theorem find?_insert (map : NameMap α) (name other : String) (value : α) :
    (map.insert name value).find? other = if other = name then some value else map.find? other := by
  split
  · rename_i h
    subst h
    exact lookup_place_self ..
  · rename_i h
    exact lookup_place_of_ne _ _ h

end NameMap

end ScalarExpr
