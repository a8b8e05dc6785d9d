import TacoDB.Catalog.Schema

/-!
# Field names

A schema has a name for each field or no names at all. The search for a name
returns the first field that has it. The getter checks its argument against the
number of names with the comparison one off, which only shows where the number
of names is itself a field id: for the first field of a schema without names.
-/

namespace Taco

def invalidFieldId : Int := 0x7fff

namespace Schema

/-- The loop of `GetFieldIdFromFieldName` over the names from index `i` on. -/
def fieldIdLoop (fieldName : ByteString) : List ByteString → Nat → Int
  | [], _ => invalidFieldId
  | name :: names, i => if fieldName = name then i else fieldIdLoop fieldName names (i + 1)

/-- `GetFieldIdFromFieldName`, which converts the number of names to a
`FieldId`. -/
def getFieldIdFromFieldName (s : Schema) (fieldName : ByteString) : Int :=
  let n := toFieldOffset s.fieldNames.length
  fieldIdLoop fieldName (s.fieldNames.take n.toNat) 0

/-- A field id and a name are looked up as the list of names says, the empty list
being that of a schema without names. -/
structure NamesKept (s : Schema) (names : List ByteString) (f : Nat) (name : ByteString) :
    Prop where
  getName : s.getFieldName f = .ok (names.getD f [])
  getId : ∀ i : Nat, names[i]? = some name → (∀ j < i, names[j]? ≠ some name) →
    s.getFieldIdFromFieldName name = i
  invalid_iff : s.getFieldIdFromFieldName name = invalidFieldId ↔ name ∉ names
  inverts : names ≠ [] → names.Nodup → s.getFieldIdFromFieldName (names.getD f []) = f

variable {typid typparam : List Nat} {nullable : List Bool} {names : List ByteString} {s : Schema}

theorem create_names (h : create typid typparam nullable names = some s) :
    s.fieldNames = names ∧ (names = [] ∨ names.length = typid.length) := by
  unfold create at h
  split at h
  · cases h
  · rename_i hcheck
    cases h
    refine ⟨rfl, or_iff_not_imp_left.mpr fun hnames => ?_⟩
    by_contra hne
    exact hcheck (.inr (.inr (.inr ⟨hnames, Ne.symm hne⟩)))

/-- The loop returns the index of the first equal name, counted from `i`. -/
theorem fieldIdLoop_eq (name : ByteString) (l : List ByteString) (i : Nat) :
    fieldIdLoop name l i =
      if name ∈ l then ((i + l.idxOf name : Nat) : Int) else invalidFieldId := by
  induction l generalizing i with
  | nil => rfl
  | cons x l ih =>
      rw [fieldIdLoop, ih]
      by_cases hx : name = x
      · rw [if_pos hx, hx, if_pos List.mem_cons_self, List.idxOf_cons_self, Nat.add_zero]
      · rw [if_neg hx, List.idxOf_cons_ne _ (Ne.symm hx)]
        simp only [List.mem_cons, hx, false_or]
        split
        · congr 1
          omega
        · rfl

theorem getFieldIdFromFieldName_eq (h : s.fieldNames.length ≤ 32767) (name : ByteString) :
    s.getFieldIdFromFieldName name =
      if name ∈ s.fieldNames then (s.fieldNames.idxOf name : Int) else invalidFieldId := by
  unfold getFieldIdFromFieldName
  dsimp only
  rw [toFieldOffset_of_mem (by omega) (by omega), Int.toNat_natCast, List.take_length,
    fieldIdLoop_eq, Nat.zero_add]

theorem getFieldName_of_lt {f : Nat} (h : f < s.fieldNames.length) :
    s.getFieldName f = .ok (s.fieldNames.getD f []) := by
  unfold getFieldName
  rw [if_neg (by omega), List.getD_eq_getElem?_getD, List.getElem?_eq_getElem h, Option.getD_some]

/-- Without names, the getter is right on every field but the first. -/
theorem getFieldName_of_nil (h : s.fieldNames = []) (f : Nat) :
    s.getFieldName f = if f = 0 then .error (.undefined "read out of bounds") else .ok [] := by
  unfold getFieldName
  rw [h]
  cases f with
  | zero => rfl
  | succ f => rfl

/-- For a schema that `Create` made with up to 32767 fields, a field and a name:
the getter and the search do what the names say unless the schema has no names and
the field is the first. -/
theorem namesKept_iff (h : create typid typparam nullable names = some s)
    (hn : typid.length ≤ 32767) {f : Nat} (hf : f < typid.length) (name : ByteString) :
    NamesKept s names f name ↔ names ≠ [] ∨ f ≠ 0 := by
  obtain ⟨rfl, hlen⟩ := create_names h
  have hle : s.fieldNames.length ≤ 32767 := by
    rcases hlen with hnil | hlen
    · rw [hnil]
      exact Nat.zero_le _
    · omega
  constructor
  · intro hkept
    by_contra hfirst
    have hnil : s.fieldNames = [] := by
      by_contra hne
      exact hfirst (.inl hne)
    have hzero : f = 0 := by
      by_contra hne
      exact hfirst (.inr hne)
    have hget := hkept.getName
    rw [getFieldName_of_nil hnil, if_pos hzero] at hget
    cases hget
  · intro hcond
    refine ⟨?_, fun i hi hfirst => ?_, ?_, fun hne hnodup => ?_⟩
    · rcases hlen with hnil | hlen
      · have hpos : f ≠ 0 := hcond.resolve_left fun hne => hne hnil
        rw [getFieldName_of_nil hnil, if_neg hpos, hnil]
        rfl
      · exact getFieldName_of_lt (hlen ▸ hf)
    · obtain ⟨hlt, hget⟩ := List.getElem?_eq_some_iff.mp hi
      have hmem : name ∈ s.fieldNames := hget ▸ List.getElem_mem hlt
      rw [getFieldIdFromFieldName_eq hle, if_pos hmem]
      have hidx := List.idxOf_lt_length_of_mem hmem
      have hat : s.fieldNames[s.fieldNames.idxOf name]? = some name :=
        List.getElem?_eq_some_iff.mpr ⟨hidx, List.getElem_idxOf hidx⟩
      have hnot : ¬s.fieldNames.idxOf name < i := fun hlt' => hfirst _ hlt' hat
      have hnot' : ¬i < s.fieldNames.idxOf name := by
        intro hlt'
        have hne := List.not_of_lt_findIdx hlt'
        simp [hget] at hne
      congr 1
      omega
    · rw [getFieldIdFromFieldName_eq hle]
      split
      · rename_i hmem
        have hidx := List.idxOf_lt_length_of_mem hmem
        exact ⟨fun heq => by unfold invalidFieldId at heq; omega, fun hno => absurd hmem hno⟩
      · rename_i hmem
        exact ⟨fun _ => hmem, fun _ => rfl⟩
    · have hlt : f < s.fieldNames.length := (hlen.resolve_left hne) ▸ hf
      rw [getFieldIdFromFieldName_eq hle, List.getD_eq_getElem?_getD, List.getElem?_eq_getElem hlt,
        Option.getD_some, if_pos (List.getElem_mem hlt), hnodup.idxOf_getElem]

theorem namesKept_iff_named :
    ∃ s, create [1, 2] [0, 0] [false, true] [ascii "a", ascii "b"] = some s ∧
      NamesKept s [ascii "a", ascii "b"] 1 (ascii "c") := by
  have hcreate : create [1, 2] [0, 0] [false, true] [ascii "a", ascii "b"] =
    some (construct [1, 2] [0, 0] [false, true] [ascii "a", ascii "b"]) := rfl
  exact ⟨_, hcreate,
    (namesKept_iff hcreate (by decide) (by decide) (ascii "c")).mpr (.inl (by decide))⟩

/-- The name of the first field of a schema without names. -/
theorem getFieldName_unnamed :
    ∃ s, create [1] [0] [false] = some s ∧
      s.getFieldName 0 = .error (.undefined "read out of bounds") ∧
      ∀ name, ¬NamesKept s [] 0 name :=
  ⟨_, rfl, rfl, fun _ h => absurd h.getName nofun⟩

end Schema

end Taco
