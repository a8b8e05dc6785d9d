import TacoDB.Catalog.RowPayload

/-!
# What payloads do not depend on

The payload of a row and its layout depend neither on the names of the fields nor, for the
types without a length function, on the parameters of their types. Two schemas that are the
same otherwise write and read the same payloads.
-/

namespace Taco

open Eff Buffer

def FieldInfo.bare (f : FieldInfo) : FieldInfo := { f with typparam := 0 }

namespace Schema

def bare (s : Schema) : Schema := { s with field := s.field.map FieldInfo.bare, fieldNames := [] }

section Payload

variable (s : Schema)

theorem getNumFields_bare : s.bare.getNumFields = s.getNumFields := by
  rw [getNumFields, getNumFields, bare, List.length_map]

theorem fieldAt_bare (i : Nat) : s.bare.fieldAt i = (s.fieldAt i).bare := by
  rw [fieldAt, fieldAt, bare, List.getD_eq_getElem?_getD, List.getD_eq_getElem?_getD,
    List.getElem?_map]
  cases s.field[i]? with
  | none => rfl
  | some f => rfl

theorem fields_bare : s.bare.fields = s.fields.map FieldInfo.bare := by
  rw [fields, getNumFields_bare, fields, bare, List.map_take]

theorem writeField_bare (init : Int) (i : Nat) (f : FieldInfo) (d : Datum) (off : Int) :
    s.bare.writeField init i f.bare d off = s.writeField init i f d off :=
  rfl

theorem writeFields_bare (init : Int) (data : List Datum) (is : List Nat) (off : Int) :
    s.bare.writeFields init data is off = s.writeFields init data is off := by
  induction is generalizing off with
  | nil => rfl
  | cons i is ih =>
      unfold writeFields
      simp only [fieldAt_bare, writeField_bare, ih]

theorem writePayloadToBuffer_bare : s.bare.writePayloadToBuffer = s.writePayloadToBuffer := by
  funext data
  unfold writePayloadToBuffer
  simp only [writeFields_bare]
  rfl

theorem skipNullableFixed_bare (payload : ByteString) (i : Nat) (is : List Nat) (off : Int) :
    s.bare.skipNullableFixed payload i is off = s.skipNullableFixed payload i is off := by
  induction is generalizing off with
  | nil => rfl
  | cons j is ih =>
      unfold skipNullableFixed
      simp only [fieldAt_bare, ih]
      rfl

theorem getField_bare (i : Nat) (payload : ByteString) :
    s.bare.getField i payload = s.getField i payload := by
  unfold getField fieldIsNull getOffsetAndLength
  simp only [fieldAt_bare, skipNullableFixed_bare]
  rfl

theorem dissemblePayload_bare : s.bare.dissemblePayload = s.dissemblePayload := by
  funext payload
  rw [dissemblePayload, dissemblePayload, getNumFields_bare]
  simp only [getField_bare]

theorem decoded_bare (data : List Datum) : s.bare.decoded data = s.decoded data := by
  rw [decoded, decoded, storedData, storedData, fields_bare]
  apply List.ext_getElem?
  intro i
  rw [List.getElem?_zipWith, List.getElem?_zipWith, List.getElem?_zipWith, List.getElem?_zipWith,
    List.getElem?_map]
  cases s.fields[i]? with
  | none => rfl
  | some f =>
      cases data[i]? with
      | none => rfl
      | some d => rfl

end Payload

section SameBare

variable {s s' : Schema} (h : s.bare = s'.bare)

include h

theorem writePayloadToBuffer_of_bare : s.writePayloadToBuffer = s'.writePayloadToBuffer := by
  rw [← writePayloadToBuffer_bare, h, writePayloadToBuffer_bare]

theorem dissemblePayload_of_bare : s.dissemblePayload = s'.dissemblePayload := by
  rw [← dissemblePayload_bare, h, dissemblePayload_bare]

theorem decoded_of_bare (data : List Datum) : s.decoded data = s'.decoded data := by
  rw [← decoded_bare, h, decoded_bare]

theorem rowData_of_bare {data : List Datum} (hd : RowData s data) : RowData s' data := by
  refine ⟨?_, hd.notNull⟩
  have hlen : s.bare.fields.length = s'.bare.fields.length := by rw [h]
  rw [fields_bare, fields_bare, List.length_map, List.length_map] at hlen
  rw [hd.length, hlen]

end SameBare

def LayoutScan.bare (sc : LayoutScan) : LayoutScan :=
  { sc with field := sc.field.map FieldInfo.bare }

def bareScan : Except LayoutScan LayoutScan → Except LayoutScan LayoutScan
  | .error sc => .error sc.bare
  | .ok sc => .ok sc.bare

section Layout

variable {types : Nat → Option SysTableType} {builtin : BuiltinTable}

theorem scanField_bare (typ : SysTableType) (typlen : Int) (f : FieldInfo) (sc : LayoutScan) :
    scanField typ typlen f.bare sc.bare = bareScan (scanField typ typlen f sc) := by
  have hlen : (sc.field.map FieldInfo.bare).length = sc.field.length := List.length_map _
  unfold scanField
  dsimp only [LayoutScan.bare, FieldInfo.bare]
  rw [hlen]
  split_ifs
  · simp [bareScan, FieldInfo.bare, LayoutScan.bare]
  · simp [bareScan, FieldInfo.bare, LayoutScan.bare]
  · simp [bareScan, FieldInfo.bare, LayoutScan.bare]
  · simp [bareScan, FieldInfo.bare, LayoutScan.bare]
  · cases addWithCheck 16 (typeAlign typ.typalign sc.off) typlen with
    | none => simp [bareScan, FieldInfo.bare, LayoutScan.bare]
    | some off => simp [bareScan, FieldInfo.bare, LayoutScan.bare]

theorem scanFields_bare {fs : List FieldInfo}
    (hfunc : ∀ f ∈ fs, ∀ typ ∈ types f.typid, typ.typlenfunc = invalidOid) (sc : LayoutScan) :
    scanFields (fun oid => (pure (types oid) : Eff Failure Unit _)) builtin
        (fs.map FieldInfo.bare) sc.bare () =
      ((scanFields (fun oid => (pure (types oid) : Eff Failure Unit _)) builtin fs sc ()).1.map
        bareScan, ()) := by
  induction fs generalizing sc with
  | nil => rfl
  | cons f fs ih =>
      have htypid : f.bare.typid = f.typid := rfl
      rw [List.map_cons]
      unfold scanFields
      rw [bind_of_ok (pure_apply _ _), bind_of_ok (pure_apply _ _), htypid]
      cases htyp : types f.typid with
      | none => rfl
      | some typ =>
          have hnone := hfunc f List.mem_cons_self typ htyp
          have hlen : resolveTyplen builtin typ f.bare.typparam =
              resolveTyplen builtin typ f.typparam := by
            unfold resolveTyplen
            rw [hnone, if_neg (not_not_intro rfl), if_neg (not_not_intro rfl)]
          dsimp only
          rw [hlen]
          cases resolveTyplen builtin typ f.typparam with
          | error e => rfl
          | ok typlen =>
              rw [bind_of_ok (ofExcept_apply _ _), bind_of_ok (ofExcept_apply _ _), scanField_bare]
              cases scanField typ typlen f sc with
              | error sc' =>
                  simp [bareScan, LayoutScan.bare, Except.map]
              | ok sc' => exact ih (fun g hg => hfunc g (List.mem_cons_of_mem f hg)) sc'

theorem assignField_bare (nfix nvar nnullvar i : Nat) (f : FieldInfo) (idx : List Nat) :
    assignField nfix nvar nnullvar i f.bare idx =
      (assignField nfix nvar nnullvar i f idx).map fun p => (p.1, p.2.bare) := by
  have hlen : f.bare.typlen = f.typlen := rfl
  have hnull : f.bare.nullbitId = f.nullbitId := rfl
  have hoff : f.bare.offset = f.offset := rfl
  rw [assignField, assignField, hlen, hnull, hoff]
  by_cases hv : f.typlen = -1
  · rw [if_pos hv, if_pos hv]
    cases setReorderIdx idx (nfix + (-f.offset - 1)) i with
    | error e => rfl
    | ok idx' =>
        rw [ok_bind, ok_bind]
        by_cases hn : 0 ≤ f.nullbitId
        · rw [if_pos hn, if_pos hn]
          rfl
        · rw [if_neg hn, if_neg hn]
          rfl
  · rw [if_neg hv, if_neg hv]
    by_cases hn : 0 ≤ f.nullbitId
    · rw [if_pos hn, if_pos hn]
      cases setReorderIdx idx (nfix + nvar + (-f.offset - 1)) i with
      | error e => rfl
      | ok idx' => rfl
    · rw [if_neg hn, if_neg hn]
      rfl

theorem assignFields_bare (nfix nvar nnullvar : Nat) (fs : List FieldInfo) (i : Nat)
    (idx : List Nat) :
    assignFields nfix nvar nnullvar (fs.map FieldInfo.bare) i idx =
      (assignFields nfix nvar nnullvar fs i idx).map
        fun p => (p.1, p.2.1.map FieldInfo.bare, p.2.2) := by
  induction fs generalizing i idx with
  | nil => rfl
  | cons f fs ih =>
      rw [List.map_cons]
      unfold assignFields
      rw [assignField_bare]
      cases assignField nfix nvar nnullvar i f idx with
      | error e => rfl
      | ok p =>
          change (assignFields nfix nvar nnullvar (fs.map FieldInfo.bare) (i + 1) p.1 >>= _) = _
          rw [ih]
          cases hrest : assignFields nfix nvar nnullvar fs (i + 1) p.1 with
          | error e =>
              simp only [ok_bind, hrest]
              rfl
          | ok q =>
              simp only [ok_bind, hrest]
              rfl

theorem computeSections_bare (s : Schema) (off : Int) (num : Nat) :
    computeSections s.bare off num = (computeSections s off num).bare := by
  unfold computeSections
  dsimp only [bare]
  cases addWithCheck 16 off ((num + 7) / 8 : Nat) with
  | none => rfl
  | some off₁ =>
      dsimp only
      split
      · rfl
      · cases addWithCheck 16 (typeAlign 2 off₁) (2 * s.numVarlenFields : Nat) with
        | none => rfl
        | some off₂ => rfl

theorem layoutOf_bare (s : Schema)
    (hfunc : ∀ f ∈ s.field, ∀ typ ∈ types f.typid, typ.typlenfunc = invalidOid) :
    layoutOf types builtin s.bare = (layoutOf types builtin s).map bare := by
  obtain ⟨k, hk⟩ : ∃ k, k = s.getNumFields.toNat := ⟨_, rfl⟩
  have hscan : scanFields (fun oid => (pure (types oid) : Eff Failure Unit _)) builtin
      (s.bare.field.take k) (LayoutScan.init s.bare k) () =
        ((scanFields (fun oid => (pure (types oid) : Eff Failure Unit _)) builtin
          (s.field.take k) (LayoutScan.init s k) ()).1.map bareScan, ()) := by
    rw [bare, ← List.map_take]
    exact scanFields_bare (fun f hf => hfunc f (List.mem_of_mem_take hf)) (LayoutScan.init s k)
  have hrest : s.bare.field.drop k = (s.field.drop k).map FieldInfo.bare := by
    rw [bare, List.map_drop]
  unfold layoutOf computeLayoutImpl
  dsimp only
  rw [getNumFields_bare, ← hk, hrest]
  split
  · rfl
  · rcases hrun : scanFields (fun oid => (pure (types oid) : Eff Failure Unit _)) builtin
        (s.field.take k) (LayoutScan.init s k) () with ⟨e | r, u⟩
    · rw [hrun] at hscan
      rw [bind_of_error hrun, bind_of_error hscan]
      rfl
    · rw [hrun] at hscan
      rw [bind_of_ok hrun, bind_of_ok hscan]
      cases r with
      | error sc =>
          simp [bareScan, bare, LayoutScan.bare, Except.map]
      | ok sc =>
          dsimp only [bareScan, LayoutScan.bare]
          by_cases hall : sc.numNonnullableFixedlenFields = k
          · rw [if_pos hall, if_pos hall]
            by_cases hoff : maxAlign sc.off < 0
            · rw [if_pos hoff, if_pos hoff]
              simp [bare, Except.map]
            · rw [if_neg hoff, if_neg hoff]
              simp [bare, Except.map]
          · rw [if_neg hall, if_neg hall, assignFields_bare]
            cases hassign : assignFields sc.numNonnullableFixedlenFields sc.numVarlenFields
                sc.numNullableVarlenFields sc.field 0 sc.fieldReorderIdx with
            | error e => rfl
            | ok p =>
                obtain ⟨idx, field, num⟩ := p
                rw [bind_of_ok (ofExcept_apply _ _)]
                change Except.ok (computeSections _ _ _) = Except.ok (computeSections _ _ _).bare
                rw [← computeSections_bare]
                simp [bare]

theorem layoutOf_bare_ok {s s' : Schema}
    (hfunc : ∀ f ∈ s.field, ∀ typ ∈ types f.typid, typ.typlenfunc = invalidOid)
    (h : layoutOf types builtin s = .ok s') : layoutOf types builtin s.bare = .ok s'.bare := by
  rw [layoutOf_bare s hfunc, h]
  rfl

theorem initFields_bare {typid typparam : List Nat} {nullable : List Bool}
    (hlen : typparam.length = typid.length) :
    (initFields typid typparam nullable).map FieldInfo.bare =
      initFields typid (List.replicate typid.length 0) nullable := by
  induction typid generalizing typparam nullable with
  | nil => rfl
  | cons t typid ih =>
      obtain ⟨p, typparam, rfl⟩ := List.exists_cons_of_length_eq_add_one hlen
      cases nullable with
      | nil => rfl
      | cons b nullable =>
          rw [List.length_cons, List.replicate_succ, initFields, initFields, List.map_cons,
            ih (Nat.succ.inj hlen)]
          rfl

theorem construct_bare {typid typparam : List Nat} (hlen : typparam.length = typid.length)
    (nullable : List Bool) (names : List ByteString) :
    (construct typid typparam nullable names).bare =
      construct typid (List.replicate typid.length 0) nullable [] := by
  have hzero : FieldInfo.zero.bare = FieldInfo.zero := rfl
  rw [construct, construct, bare]
  dsimp only
  rw [List.map_append, List.map_take, initFields_bare hlen, List.map_replicate, hzero]

end Layout

end Schema

end Taco
