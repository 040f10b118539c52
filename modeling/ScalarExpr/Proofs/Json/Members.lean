import ScalarExpr.Json.Scalar
import Mathlib.Data.List.Induction
import Mathlib.Data.List.Sort

/-!
# Members with one name

An object may have several members with one name, and the last of them counts. The map that is made
of the members binds each name to its last value, in whatever order members with different names
stand. As a map is known by what its names are bound to, such orders make the same map.
-/

namespace ScalarExpr

namespace NameMap

variable {α : Type}

/-- The value of the last entry with this name. -/
def lastValue? (entries : List (String × α)) (name : String) : Option α :=
  (entries.filter (·.1 = name)).getLast?.map Prod.snd

/-- The same entries in an order in which only those with different names have changed places. -/
def Reordered (entries others : List (String × α)) : Prop :=
  ∀ name, entries.filter (·.1 = name) = others.filter (·.1 = name)

section LastValue

variable {entries others : List (String × α)} {name : String} {value : α}

/-- An entry at the end is the last one with its name. -/
theorem lastValue?_concat (entries : List (String × α)) (entry : String × α) (name : String) :
    lastValue? (entries ++ [entry]) name =
      if name = entry.1 then some entry.2 else lastValue? entries name := by
  unfold lastValue?
  rw [List.filter_append]
  by_cases h : name = entry.1
  · simp [h]
  · simp [h, Ne.symm h]

/-- A last value stands in an entry. -/
theorem mem_of_lastValue? (h : lastValue? entries name = some value) : (name, value) ∈ entries := by
  obtain ⟨⟨key, found⟩, hlast, rfl⟩ := Option.map_eq_some_iff.mp h
  have hmem := List.mem_of_getLast? hlast
  rw [List.mem_filter, decide_eq_true_eq] at hmem
  obtain ⟨hmem, rfl⟩ := hmem
  exact hmem

/-- The names with a last value are those of the entries. -/
theorem isSome_lastValue? : (lastValue? entries name).isSome ↔ name ∈ entries.map Prod.fst := by
  simp [lastValue?]

/-- The last values do not depend on the order of entries with different names. -/
theorem Reordered.lastValue?_eq (h : Reordered entries others) (name : String) :
    lastValue? entries name = lastValue? others name :=
  congrArg (fun list => list.getLast?.map Prod.snd) (h name)

/-- Neighbours with different names may change places. -/
theorem reordered_swap {first second : String × α} (h : first.1 ≠ second.1)
    (before after : List (String × α)) :
    Reordered (before ++ first :: second :: after) (before ++ second :: first :: after) := by
  intro name
  simp only [List.filter_append, List.filter_cons, decide_eq_true_eq]
  split_ifs with hfirst hsecond
  · exact absurd (hfirst.trans hsecond.symm) h
  all_goals rfl

/-- Entries whose names all differ may be put into any order. -/
theorem reordered_of_perm (h : entries.Perm others) (hnames : (entries.map Prod.fst).Nodup) :
    Reordered entries others := by
  intro name
  -- Each name has one entry at most, so that there is only one order of its entries.
  have heq : ∀ first second, first ∈ entries.filter (·.1 = name) →
      second ∈ others.filter (·.1 = name) → True → True → first = second := by
    intro first second hfirst hsecond _ _
    rw [List.mem_filter, decide_eq_true_eq] at hfirst hsecond
    exact List.inj_on_of_nodup_map hnames hfirst.1 (h.mem_iff.mpr hsecond.1)
      (hfirst.2.trans hsecond.2.symm)
  exact List.Perm.eq_of_pairwise heq (List.pairwise_of_forall fun _ _ => trivial)
    (List.pairwise_of_forall fun _ _ => trivial) (h.filter (·.1 = name))

end LastValue

/-- A map made of entries binds each name to its last value. -/
theorem find?_ofList (entries : List (String × α)) (name : String) :
    (ofList entries).find? name = lastValue? entries name := by
  induction entries using List.reverseRecOn with
  | nil => rfl
  | append_singleton entries entry ih =>
    rw [ofList, List.foldl_append, lastValue?_concat, ← ih]
    exact find?_insert _ _ _ _

section Sorted

variable {list : List (String × α)} {name : String} {value : α}

/-- In a list with increasing names the value of a name is in the one entry with this name. -/
theorem lookup_eq_some_iff (h : list.Pairwise (·.1 < ·.1)) :
    lookup name list = some value ↔ (name, value) ∈ list := by
  induction list with
  | nil => simp [lookup]
  | cons entry rest ih =>
    obtain ⟨key, found⟩ := entry
    obtain ⟨hentry, hrest⟩ := List.pairwise_cons.mp h
    rw [lookup, List.mem_cons]
    split
    · next heq =>
      subst heq
      have hnot : (key, value) ∉ rest := fun hmem => String.lt_irrefl key (hentry _ hmem)
      simp [hnot, eq_comm]
    · next hne => simp [ih hrest, Ne.symm hne]

/-- The bindings of a map are the names with their values. -/
theorem mem_bindings_iff {map : NameMap α} :
    (name, value) ∈ map.bindings ↔ map.find? name = some value :=
  (lookup_eq_some_iff map.sorted).symm

/-- Maps that bind all names alike are equal. -/
theorem ext_find? {map other : NameMap α} (h : ∀ name, map.find? name = other.find? name) :
    map = other := by
  have hasymm : Std.Antisymm fun a b : String × α => a.1 < b.1 :=
    ⟨fun a b hab hba => absurd hba (String.lt_asymm hab)⟩
  have hirrefl : Std.Irrefl fun a b : String × α => a.1 < b.1 := ⟨fun a => String.lt_irrefl a.1⟩
  refine ext (map.sorted.eq_of_mem_iff other.sorted fun ⟨name, value⟩ => ?_)
  rw [mem_bindings_iff, mem_bindings_iff, h]

/-- The last value of a name among the bindings of a map is the one that the map binds it to. -/
theorem lastValue?_bindings (map : NameMap α) (name : String) :
    lastValue? map.bindings name = map.find? name := by
  cases hlast : lastValue? map.bindings name with
  | some value => exact (mem_bindings_iff.mp (mem_of_lastValue? hlast)).symm
  | none =>
    cases hfind : map.find? name with
    | none => rfl
    | some value =>
      have hsome := isSome_lastValue?.mpr (List.mem_map_of_mem (mem_bindings_iff.mpr hfind))
      rw [hlast] at hsome
      cases hsome

/-- A map is made of its bindings. -/
theorem ofList_bindings (map : NameMap α) : ofList map.bindings = map :=
  ext_find? fun name => (find?_ofList _ name).trans (lastValue?_bindings map name)

end Sorted

end NameMap

end ScalarExpr
