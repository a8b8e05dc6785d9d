import TacoDB.Catalog.LayoutFrame
import TacoDB.Catalog.CatCacheUpdate

/-!
# Table descriptors

What `TableDesc::Create` makes of the rows of `Column`: the arrays it fills in by column
number, and the schema it returns, which has one field and one name for each row.
-/

namespace Taco

namespace ColumnArrays

def ofColumns (cols : List SysTableColumn) : ColumnArrays :=
  { typid := cols.map (·.coltypid)
    typparam := cols.map (·.coltypparam)
    isnullable := cols.map (·.colisnullable)
    fieldNames := cols.map (·.colname) }

structure OfLength (n : Nat) (a : ColumnArrays) : Prop where
  typid : a.typid.length = n
  typparam : a.typparam.length = n
  isnullable : a.isnullable.length = n
  fieldNames : a.fieldNames.length = n

theorem ofLength_init (n : Nat) : OfLength n (init n) := by
  constructor <;> simp [init]

theorem store_ofLength {n : Nat} {a a' : ColumnArrays} {col : SysTableColumn}
    (h : a.store col = .ok a') (ha : OfLength n a) : OfLength n a' := by
  unfold store at h
  split at h
  · cases h
    constructor <;> simp [ha.typid, ha.typparam, ha.isnullable, ha.fieldNames]
  · cases h

theorem fill_ofLength {n tabid : Nat} {cols : List SysTableColumn} {a a' : ColumnArrays}
    (h : fill tabid cols a = .ok (some a')) (ha : OfLength n a) : OfLength n a' := by
  induction cols generalizing a with
  | nil =>
      cases h
      exact ha
  | cons col cols ih =>
      rw [fill] at h
      split at h
      · cases h
      · obtain ⟨a₁, hstore, h⟩ := Eff.except_bind_eq_ok_iff.mp h
        exact ih h (store_ofLength hstore ha)

/-- The arrays of the columns `done` with room for `n` more. -/
def partly (done : List SysTableColumn) (n : Nat) : ColumnArrays :=
  { typid := (ofColumns done).typid ++ (init n).typid
    typparam := (ofColumns done).typparam ++ (init n).typparam
    isnullable := (ofColumns done).isnullable ++ (init n).isnullable
    fieldNames := (ofColumns done).fieldNames ++ (init n).fieldNames }

theorem set_length_append {α : Type} (l : List α) (x y : α) (ys : List α) :
    (l ++ x :: ys).set l.length y = l ++ y :: ys := by
  induction l with
  | nil => rfl
  | cons a l ih => rw [List.cons_append, List.length_cons, List.set_cons_succ, ih]; rfl

theorem store_partly {done : List SysTableColumn} {n : Nat} {col : SysTableColumn}
    (hcol : col.colid = done.length) :
    (partly done (n + 1)).store col = .ok (partly (done ++ [col]) n) := by
  have hset : ∀ {α : Type} (g : SysTableColumn → α) (z : α),
      (done.map g ++ List.replicate (n + 1) z).set done.length (g col) =
        (done ++ [col]).map g ++ List.replicate n z := by
    intro α g z
    have h := set_length_append (done.map g) z (g col) (List.replicate n z)
    rw [List.length_map] at h
    rw [List.replicate_succ, h, List.map_append, List.append_assoc]
    rfl
  have hlen : (partly done (n + 1)).typid.length = done.length + (n + 1) := by
    simp [partly, ofColumns, init]
  unfold store
  rw [if_pos (by rw [hlen, hcol]; omega), hcol, Int.toNat_natCast]
  simp only [partly, ofColumns, init, hset]

theorem fill_partly {tabid : Nat} {cols done : List SysTableColumn}
    (htab : ∀ col ∈ cols, col.coltabid = tabid)
    (hnum : ∀ (i : Nat) (col : SysTableColumn), cols[i]? = some col →
      col.colid = (done.length + i : Nat)) :
    fill tabid cols (partly done cols.length) = .ok (some (ofColumns (done ++ cols))) := by
  induction cols generalizing done with
  | nil =>
      rw [fill]
      simp [partly, ofColumns, init]
  | cons col cols ih =>
      have hcol := hnum 0 col rfl
      rw [fill, if_neg (not_not.mpr (htab col List.mem_cons_self)), List.length_cons,
        store_partly (by rw [hcol]; rfl), Eff.ok_bind, ih]
      · rw [List.append_assoc]
        rfl
      · exact fun c hc => htab c (List.mem_cons_of_mem col hc)
      · intro i c hc
        have := hnum (i + 1) c hc
        rw [this, List.length_append, List.length_singleton]
        omega

/-- Columns of the table that stand at their numbers are stored in their order. -/
theorem fill_numbered {tabid : Nat} {cols : List SysTableColumn}
    (htab : ∀ col ∈ cols, col.coltabid = tabid)
    (hnum : ∀ (i : Nat) (col : SysTableColumn), cols[i]? = some col → col.colid = i) :
    fill tabid cols (init cols.length) = .ok (some (ofColumns cols)) := by
  have hempty : init cols.length = partly [] cols.length := by
    simp [partly, ofColumns]
  rw [hempty, fill_partly htab fun i col hi => by rw [hnum i col hi, List.length_nil, Nat.zero_add]]
  rfl

end ColumnArrays

namespace TableDesc

variable {σ : Type} {findType : Nat → Eff Failure σ (Option SysTableType)}
  {builtin : BuiltinTable} {table : SysTableTable} {columns : List SysTableColumn}

theorem create_frame {desc : TableDesc} {st st' : σ}
    (h : create findType builtin table columns st = (.ok (some desc), st')) :
    desc.table = table ∧ columns ≠ [] ∧ desc.schema.field.length = columns.length ∧
      desc.schema.fieldNames.length = columns.length := by
  unfold create at h
  split at h
  · cases (Eff.ok_inj h).1
  · rename_i hne
    obtain ⟨a?, st₁, hfill, h⟩ := Eff.bind_eq_ok_iff.mp h
    cases a? with
    | none => cases (Eff.ok_inj h).1
    | some a =>
        have hlen := ColumnArrays.fill_ofLength (congrArg Prod.fst hfill)
          (ColumnArrays.ofLength_init columns.length)
        dsimp only at h
        cases hschema : Schema.create a.typid a.typparam a.isnullable a.fieldNames with
        | none =>
            rw [hschema] at h
            cases h
        | some schema =>
            rw [hschema] at h
            obtain ⟨schema', st₂, hlayout, h⟩ := Eff.bind_eq_ok_iff.mp h
            have hdesc := Option.some.inj (Eff.ok_inj h).1
            subst hdesc
            obtain ⟨-, hcols, hnames⟩ := Schema.computeLayoutImpl_frame hlayout
            have hfields := congrArg List.length hcols
            rw [List.length_map, List.length_map] at hfields
            obtain ⟨hnew, hnewNames⟩ := Schema.length_create hschema
            exact ⟨rfl, hne, by rw [hfields, hnew, hlen.typid],
              by rw [hnames, hnewNames, hlen.fieldNames]⟩

end TableDesc

end Taco
