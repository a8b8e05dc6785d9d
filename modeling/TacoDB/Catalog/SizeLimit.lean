import TacoDB.Catalog.NullBits
import TacoDB.Catalog.WritePositions

/-!
# The size limit of a written payload

`WritePayloadToBuffer` promises `-1` for a buffer that would exceed the largest
`FieldOffset`. It tests sums of `FieldOffset`s for a negative value, but these are
computed as `int`s, and the size of a variable-length datum is converted to 16
bits before it is used. `OverflowNoticed` says exactly which overflows end in
`-1`.
-/

namespace Taco

open Rank Alignment Buffer

namespace Schema

/-- The writer notices an overflow while it stores `items` behind the `p` bytes of
the buffer, or when it closes the payload. -/
def OverflowNoticed (s : Schema) (init : Nat) : Int → List (FieldInfo × Datum) → Prop
  | p, [] => OffsetAgrees init p ∧ AlignNoticed init 8 p
  | p, (f, d) :: items =>
      if d.isnull then
        (BitFits s init f p ∧ EndFits s init f p) ∧ OverflowNoticed s init p items
      else
        AlignNoticed init f.typalign.toNat p ∨
          EndFits s init f p ∧
            (alignedPos init f.typalign.toNat p + narrowSize f d < 0 ∨
              OffsetAgrees init p ∧ 0 ≤ narrowSize f d ∧
                OverflowNoticed s init
                  (alignedPos init f.typalign.toNat p + narrowSize f d) items)

/-- What `WritePayloadToBufferImpl` does behind its loop, with the running offset
at `off`. -/
def closeAt (init : Nat) (off : Int) : Eff Failure ByteString Int := do
  let buf ← Eff.getState
  assert (off + init = toFieldOffset buf.length) "off + init_len == buf.size()"
  let off := maxAlign off
  if init + off < 0 then
    return -1
  else
    if off + init > toFieldOffset buf.length then
      resizeBuf (off + init)
    return off

def closePayload (init : Nat) : Option Int → Eff Failure ByteString Int
  | none => return -1
  | some off => closeAt init off

theorem writePayloadToBuffer_eq {s : Schema} {data : List Datum} {buf : ByteString}
    {init : Nat} (hshort : buf.length < 32767)
    (hinit : maxAlign (toFieldOffset buf.length) = init) :
    writePayloadToBuffer s data buf =
      if init + s.varlenPayloadBegin < 0 then (.ok (-1), buf)
      else (writeFields s init data s.fieldReorderIdx s.varlenPayloadBegin >>=
        closePayload init) (resize buf (init + s.varlenPayloadBegin).toNat 0) := by
  unfold writePayloadToBuffer
  rw [Eff.bind_of_ok (Eff.getState_apply _), if_neg (by omega), hinit, if_neg (by omega)]
  split
  · rfl
  · rw [Eff.bind_of_ok (resizeBuf_apply _ _)]
    congr 1

section

variable {s : Schema} {init : Nat} {p : Int} {buf : ByteString} {data : List Datum}

theorem isAlignment_eight : IsAlignment 8 := Or.inr (Or.inr (Or.inr rfl))

/-- The end of the writer: a failed `ASSERT`, an overflow that it notices, or the
length of the payload. -/
theorem closeAt_eq (hinit : 8 ∣ init) (hle : init ≤ 32760)
    (hp : (buf.length : Int) = p) (hp' : p ≤ 65535) :
    closeAt init (toFieldOffset (p - init)) buf =
      if ¬ OffsetAgrees init p then (.error (.assertion "off + init_len == buf.size()"), buf)
      else if AlignNoticed init 8 p then (.ok (-1), buf)
      else (.ok (alignedPos init 8 p - init),
        if alignedPos init 8 p > toFieldOffset p then resize buf (alignedPos init 8 p).toNat 0
        else buf) := by
  have hagree := offset_agrees_iff hle (by omega : 0 ≤ p) hp'
  unfold closeAt
  rw [Eff.bind_of_ok (Eff.getState_apply _), hp]
  by_cases hag : OffsetAgrees init p
  · rw [if_neg (not_not_intro hag), assert, if_pos (by simpa using hagree.mpr hag),
      Eff.bind_of_ok (Eff.pure_apply _ _)]
    dsimp only
    by_cases hnot : AlignNoticed init 8 p
    · have hneg := add_typeAlign_neg isAlignment_eight hinit hle (by omega) hp' hnot
      change init + maxAlign _ < 0 at hneg
      rw [if_pos hnot, if_pos hneg]
      rfl
    · obtain ⟨hpos, hnonneg, -⟩ :=
        add_typeAlign_pos isAlignment_eight hinit hle (by omega) hp' hnot
      change init + maxAlign _ = alignedPos init 8 p at hpos
      change 0 ≤ alignedPos init 8 p at hnonneg
      rw [if_neg hnot, if_neg (by omega)]
      have hval : maxAlign (toFieldOffset (p - init)) = alignedPos init 8 p - init := by omega
      rw [hval, sub_add_cancel]
      split <;> rfl
  · rw [if_pos hag, assert, if_neg (by simpa using fun h => hag (hagree.mp h))]
    exact Eff.bind_of_error (Eff.fail_apply _ _) _

def storedItems (s : Schema) (data : List Datum) (is : List Nat) : List (FieldInfo × Datum) :=
  is.map fun i => (s.fieldAt i, data.getD i .null)

theorem writeFields_cons {i : Nat} {is : List Nat} {off : Int} (hi : i < data.length) :
    writeFields s init data (i :: is) off buf =
      match writeField s init i (s.fieldAt i) (data.getD i .null) off buf with
      | (.error e, buf') => (.error e, buf')
      | (.ok none, buf') => (.ok none, buf')
      | (.ok (some off'), buf') => writeFields s init data is off' buf' := by
  have hd : data[i]? = some (data.getD i .null) := by
    rw [List.getD_eq_getElem?_getD, List.getElem?_eq_getElem hi, Option.getD_some]
  rw [writeFields, hd]
  dsimp only
  rw [Eff.bind_apply]
  rcases writeField s init i (s.fieldAt i) (data.getD i .null) off buf with ⟨e | (_ | off'), buf'⟩
    <;> rfl

/-- What a run does behind an iteration with this outcome, where `k` is the rest of the run. -/
def continueRun (k : Int → Eff Failure ByteString Int) :
    Except Failure (Option Int) × ByteString → Except Failure Int × ByteString
  | (.error e, buf) => (.error e, buf)
  | (.ok none, buf) => (.ok (-1), buf)
  | (.ok (some off), buf) => k off buf

def runStep (s : Schema) (init i : Nat) (f : FieldInfo) (d : Datum)
    (k : Int → Eff Failure ByteString Int) (off : Int) : Eff Failure ByteString Int :=
  fun buf => continueRun k (writeField s init i f d off buf)

theorem run_apply {i : Nat} {is : List Nat} (hi : i < data.length) (off : Int)
    (buf : ByteString) :
    (writeFields s init data (i :: is) off >>= closePayload init) buf =
      runStep s init i (s.fieldAt i) (data.getD i .null)
        (fun off' => writeFields s init data is off' >>= closePayload init) off buf := by
  rw [Eff.bind_apply, writeFields_cons hi, runStep]
  rcases writeField s init i (s.fieldAt i) (data.getD i .null) off buf with ⟨e | (_ | off'), buf'⟩
    <;> rfl

theorem run_cons {i : Nat} {is : List Nat} (hi : i < data.length) :
    (fun off => writeFields s init data (i :: is) off >>= closePayload init) =
      runStep s init i (s.fieldAt i) (data.getD i .null)
        fun off => writeFields s init data is off >>= closePayload init :=
  funext fun off => funext (run_apply hi off)

structure Storable (s : Schema) (data : List Datum) (is : List Nat) : Prop where
  shaped : ∀ i ∈ is, (s.fieldAt i).Shaped
  offset_neg : ∀ i ∈ is, (s.fieldAt i).offset < 0
  data_lt : ∀ i ∈ is, i < data.length

theorem Storable.tail {i : Nat} {is : List Nat} (h : Storable s data (i :: is)) :
    Storable s data is :=
  ⟨fun j hj => h.shaped j (List.mem_cons_of_mem i hj),
    fun j hj => h.offset_neg j (List.mem_cons_of_mem i hj),
    fun j hj => h.data_lt j (List.mem_cons_of_mem i hj)⟩

theorem narrowSize_le (f : FieldInfo) (d : Datum) : narrowSize f d ≤ 32767 := by
  rw [narrowSize, toFieldOffset_eq]
  omega

/-- The walk of the writer over `items` behind the `p` bytes of the buffer: it notices an
overflow on the way, or comes to the end with a number of bytes that is `final`. -/
def StoreWalk (s : Schema) (init : Nat) (final : Int → Prop) :
    Int → List (FieldInfo × Datum) → Prop
  | p, [] => final p
  | p, (f, d) :: items =>
      if d.isnull then
        (BitFits s init f p ∧ EndFits s init f p) ∧ StoreWalk s init final p items
      else
        AlignNoticed init f.typalign.toNat p ∨
          EndFits s init f p ∧
            (alignedPos init f.typalign.toNat p + narrowSize f d < 0 ∨
              OffsetAgrees init p ∧ 0 ≤ narrowSize f d ∧
                StoreWalk s init final
                  (alignedPos init f.typalign.toNat p + narrowSize f d) items)

theorem overflowNoticed_iff_storeWalk (p : Int) (items : List (FieldInfo × Datum)) :
    OverflowNoticed s init p items ↔
      StoreWalk s init (fun p => OffsetAgrees init p ∧ AlignNoticed init 8 p) p items := by
  induction items generalizing p with
  | nil => exact Iff.rfl
  | cons item items ih =>
      obtain ⟨f, d⟩ := item
      rw [OverflowNoticed, StoreWalk]
      simp only [ih]

section Walk

variable {T : Except Failure Int → Prop} {final : Int → Prop}

/-- A run that is before the fields `items` has an outcome in `T` exactly when the walk over
them is possible. -/
def Walks (s : Schema) (init : Nat) (T : Except Failure Int → Prop) (final : Int → Prop)
    (k : Int → Eff Failure ByteString Int) (items : List (FieldInfo × Datum)) : Prop :=
  ∀ (p : Int) (buf : ByteString), (buf.length : Int) = p → p ≤ 65535 →
    (T (k (toFieldOffset (p - init)) buf).1 ↔ StoreWalk s init final p items)

namespace Walks

variable {k : Int → Eff Failure ByteString Int} {items : List (FieldInfo × Datum)} {i : Nat}
  {f : FieldInfo} {d : Datum}

theorem null (herr : ∀ e, ¬ T (.error e)) (hoff : f.offset < 0) (hnull : d.isnull = true)
    (hk : Walks s init T final k items) :
    Walks s init T final (runStep s init i f d k) ((f, d) :: items) := by
  intro p buf hp hp'
  rw [runStep, StoreWalk, hnull, if_pos rfl]
  by_cases hfits : BitFits s init f p ∧ EndFits s init f p
  · obtain ⟨buf', hrun, hlen, -⟩ :=
      writeField_null_fits (i := i) _ hoff hnull hp hfits.1 hfits.2
    rw [hrun]
    exact (hk p buf' hlen hp').trans ⟨fun h => ⟨hfits, h⟩, fun h => h.2⟩
  · obtain ⟨what, buf', hrun⟩ := writeField_null_outside (i := i) _ hoff hnull hp hfits
    rw [hrun]
    exact iff_of_false (herr _) (fun h => hfits h.1)

theorem stored (hneg : T (.ok (-1))) (herr : ∀ e, ¬ T (.error e)) (hinit : 8 ∣ init)
    (hle : init ≤ 32760) (hf : f.Shaped) (hoff : f.offset < 0) (hnull : d.isnull = false)
    (hk : Walks s init T final k items) :
    Walks s init T final (runStep s init i f d k) ((f, d) :: items) := by
  intro p buf hp hp'
  have hrun : writeField s init i f d (toFieldOffset (p - init)) buf =
      writeStored s init f d (toFieldOffset (p - init)) buf := by
    rw [writeField, if_neg (by omega), hnull, if_neg Bool.false_ne_true]
  rw [runStep, StoreWalk, hnull, if_neg Bool.false_ne_true, hrun]
  by_cases hnot : AlignNoticed init f.typalign.toNat p
  · rw [writeStored_alignNoticed hf hinit hle hp hp' hnot]
    exact iff_of_true hneg (Or.inl hnot)
  rw [or_iff_right hnot]
  by_cases hend : EndFits s init f p
  · rw [and_iff_right hend]
    obtain ⟨hnegative, hassert, hmemcpy⟩ :=
      writeStored_ends (d := d) hf hinit hle hp hp' hnot hend
    obtain ⟨-, hpos, htop⟩ := add_typeAlign_pos hf.align hinit hle (by omega) hp' hnot
    by_cases hless : alignedPos init f.typalign.toNat p + narrowSize f d < 0
    · rw [hnegative hless]
      exact iff_of_true hneg (Or.inl hless)
    rw [or_iff_right hless]
    by_cases hag : OffsetAgrees init p
    · rw [and_iff_right hag]
      by_cases hn : 0 ≤ narrowSize f d
      · rw [and_iff_right hn]
        obtain ⟨buf', hcont, hlen, -⟩ :=
          writeStored_continues hf hinit hle hp hp' hoff hnot hend hag hn
        have hsize := narrowSize_le f d
        have htop' := htop hag
        rw [hcont]
        exact hk _ buf' hlen (by omega)
      · obtain ⟨buf', hends⟩ := hmemcpy (by omega) hag (by omega)
        rw [hends]
        exact iff_of_false (herr _) fun h => hn h.1
    · rw [hassert (by omega) hag]
      exact iff_of_false (herr _) fun h => hag h.1
  · rw [writeStored_endOutside hf hinit hle hp hp' hnot hend]
    exact iff_of_false (herr _) fun h => hend h.1

end Walks

/-- The loop and the end of the writer have an outcome in `T` exactly when the walk is
possible, if `T` contains `-1` and no failure, and the end of the writer is in `T` exactly
for a `final` number of bytes. -/
theorem writeFields_walks (hneg : T (.ok (-1))) (herr : ∀ e, ¬ T (.error e))
    (hfinal : ∀ (p : Int) (buf : ByteString), (buf.length : Int) = p → p ≤ 65535 →
      (T (closeAt init (toFieldOffset (p - init)) buf).1 ↔ final p))
    (hinit : 8 ∣ init) (hle : init ≤ 32760) {is : List Nat} (hst : Storable s data is) :
    Walks s init T final (fun off => writeFields s init data is off >>= closePayload init)
      (storedItems s data is) := by
  induction is with
  | nil => exact hfinal
  | cons i is ih =>
      have hf := hst.shaped i List.mem_cons_self
      have hoff := hst.offset_neg i List.mem_cons_self
      rw [run_cons (hst.data_lt i List.mem_cons_self)]
      cases hnull : (data.getD i .null).isnull with
      | true => exact (ih hst.tail).null herr hoff hnull
      | false => exact (ih hst.tail).stored hneg herr hinit hle hf hoff hnull

end Walk

/-- The end of the writer returns `-1` exactly on an overflow that is noticed. -/
theorem closeAt_noticed_iff (hinit : 8 ∣ init) (hle : init ≤ 32760) (p : Int) (buf : ByteString)
    (hp : (buf.length : Int) = p) (hp' : p ≤ 65535) :
    (closeAt init (toFieldOffset (p - init)) buf).1 = .ok (-1) ↔
      OffsetAgrees init p ∧ AlignNoticed init 8 p := by
  rw [closeAt_eq hinit hle hp hp']
  by_cases hag : OffsetAgrees init p
  · by_cases hnot : AlignNoticed init 8 p
    · rw [if_neg (not_not_intro hag), if_pos hnot]
      exact iff_of_true rfl ⟨hag, hnot⟩
    · rw [if_neg (not_not_intro hag), if_neg hnot]
      refine iff_of_false (fun h => ?_) (fun h => hnot h.2)
      have hval := Except.ok.inj h
      -- the length of a payload is a multiple of 8
      have hdvd : (8 : Int) ∣ alignUp 8 p := dvd_alignUp 8 p
      unfold alignedPos at hval
      split at hval <;> omega
  · rw [if_pos hag]
    exact iff_of_false nofun fun h => hag h.1

/-- The end of the writer returns unless its `ASSERT` fails. -/
theorem closeAt_returns_iff (hinit : 8 ∣ init) (hle : init ≤ 32760) (p : Int) (buf : ByteString)
    (hp : (buf.length : Int) = p) (hp' : p ≤ 65535) :
    (∃ len, (closeAt init (toFieldOffset (p - init)) buf).1 = .ok len) ↔ OffsetAgrees init p := by
  rw [closeAt_eq hinit hle hp hp']
  by_cases hag : OffsetAgrees init p
  · rw [if_neg (not_not_intro hag)]
    refine iff_of_true ?_ hag
    split
    · exact ⟨-1, rfl⟩
    · exact ⟨_, rfl⟩
  · rw [if_pos hag]
    exact iff_of_false (fun ⟨_, h⟩ => nomatch h) hag

end

section Whole

variable {s : Schema} {l : List FieldInfo} {data : List Datum}

theorem storable_storedOrder (ha : Arranged s l) (hs : Sectioned s l)
    (hlen : data.length = l.length) : Storable s data (storedOrder l) := by
  have hfield : ∀ i ∈ storedOrder l, ∃ f, l[i]? = some f := fun i hi =>
    ⟨_, List.getElem?_eq_getElem (lt_of_mem_storedOrder hi)⟩
  refine ⟨?_, ?_, ?_⟩
  · intro i hi
    obtain ⟨f, hf⟩ := hfield i hi
    rw [fieldAt_eq ha hf]
    exact hs.shaped f (List.mem_of_getElem? hf)
  · intro i hi
    rcases List.mem_append.mp hi with h | h
    · obtain ⟨f, hf, hv⟩ := mem_indices.mp h
      rw [fieldAt_eq ha hf, ha.offset_varlen i f hf hv]
      omega
    · obtain ⟨f, hf, hn⟩ := mem_indices.mp h
      rw [fieldAt_eq ha hf, ha.offset_nullableFixed i f hf hn]
      omega
  · intro i hi
    have := lt_of_mem_storedOrder hi
    omega

theorem plain_data (hlen : data.length = l.length)
    (hnulls : ∀ (i : Nat) (f : FieldInfo) (d : Datum), l[i]? = some f → data[i]? = some d →
      d.isnull = true → f.isNullable = true) :
    ∀ i ∈ indices FieldInfo.isPlain l, ∃ f d, l[i]? = some f ∧ f.isPlain = true ∧
      data[i]? = some d ∧ d.isnull = false := by
  intro i hi
  obtain ⟨f, hf, hplain⟩ := mem_indices.mp hi
  have hlt := (List.getElem?_eq_some_iff.mp hf).1
  have hd := List.getElem?_eq_getElem (l := data) (show i < data.length by omega)
  refine ⟨f, _, hf, hplain, hd, ?_⟩
  by_contra hnull
  have hnullable := hnulls i f _ hf hd (by simpa using hnull)
  simp [FieldInfo.isPlain, hnullable] at hplain

theorem addWithCheck_range {left right res : Int} (h : addWithCheck 16 left right = some res) :
    -32768 ≤ res ∧ res ≤ 32767 := by
  unfold addWithCheck at h
  dsimp only at h
  split at h
  · cases h
  · have hres := Option.some.inj h
    rw [← hres, TwosComplement.narrow_sixteen]
    omega

theorem writePayloadToBuffer_header {buf : ByteString} (h : 32760 < buf.length) :
    writePayloadToBuffer s data buf = (.ok (-1), buf) := by
  unfold writePayloadToBuffer
  rw [Eff.bind_of_ok (Eff.getState_apply _)]
  by_cases hlong : buf.length ≥ 32767
  · rw [if_pos hlong]
    rfl
  · have hneg : maxAlign (toFieldOffset buf.length) < 0 := by
      rw [maxAlign, typeAlign_eq isAlignment_eight, toFieldOffset_eq, toFieldOffset_eq]
      change (alignUp 8 _ + 32768) % 65536 - 32768 < 0
      simp only [alignUp]
      omega
    rw [if_neg hlong]
    dsimp only
    rw [if_pos hneg]
    rfl

theorem maxAlign_header {old : Nat} (h : old ≤ 32760) :
    maxAlign (toFieldOffset old) = (alignUp 8 old).toNat ∧ (alignUp 8 old).toNat ≤ 32760 ∧
      8 ∣ (alignUp 8 old).toNat ∧ ((alignUp 8 old).toNat : Int) = alignUp 8 old := by
  have hle := le_alignUp (a := 8) (by decide) (old : Int)
  have htop := alignUp_le_of_dvd (a := 8) (m := 32760) (by decide) (by decide)
    (show (old : Int) ≤ 32760 by omega)
  have hdvd : (8 : Int) ∣ alignUp 8 old := dvd_alignUp 8 old
  rw [toFieldOffset_of_mem (by omega) (by omega), maxAlign_of_le (by omega) (by omega)]
  omega

/-- The overflows that end in `-1`. -/
def OverflowSeen (s : Schema) (data : List Datum) (old : Nat) : Prop :=
  32760 < old ∨ (alignUp 8 old).toNat + s.varlenPayloadBegin < 0 ∨
    PlainFits s.fields (alignUp 8 old).toNat ((alignUp 8 old).toNat + s.varlenPayloadBegin) ∧
      OverflowNoticed s (alignUp 8 old).toNat ((alignUp 8 old).toNat + s.varlenPayloadBegin)
        (storedItems s data (storedOrder s.fields))

def WalkPossible (s : Schema) (data : List Datum) (final : Nat → Int → Prop) (old : Nat) : Prop :=
  32760 < old ∨ (alignUp 8 old).toNat + s.varlenPayloadBegin < 0 ∨
    PlainFits s.fields (alignUp 8 old).toNat ((alignUp 8 old).toNat + s.varlenPayloadBegin) ∧
      StoreWalk s (alignUp 8 old).toNat (final (alignUp 8 old).toNat)
        ((alignUp 8 old).toNat + s.varlenPayloadBegin) (storedItems s data (storedOrder s.fields))

/-- The outcome of the writer is in `T` exactly when its walk is possible. -/
theorem writePayloadToBuffer_walk_iff {T : Except Failure Int → Prop} {final : Nat → Int → Prop}
    (hneg : T (.ok (-1))) (herr : ∀ e, ¬ T (.error e))
    (hfinal : ∀ init : Nat, 8 ∣ init → init ≤ 32760 → ∀ (p : Int) (buf : ByteString),
      (buf.length : Int) = p → p ≤ 65535 →
        (T (closeAt init (toFieldOffset (p - init)) buf).1 ↔ final init p))
    (ha : Arranged s l) (hs : Sectioned s l) (hlen : data.length = l.length)
    (hnulls : ∀ (i : Nat) (f : FieldInfo) (d : Datum), l[i]? = some f → data[i]? = some d →
      d.isnull = true → f.isNullable = true) (buf : ByteString) :
    T (writePayloadToBuffer s data buf).1 ↔ WalkPossible s data final buf.length := by
  unfold WalkPossible
  rw [ha.fields_eq]
  by_cases hheader : 32760 < buf.length
  · rw [writePayloadToBuffer_header hheader]
    exact iff_of_true hneg (Or.inl hheader)
  obtain ⟨hmax, hinit, hdvd, -⟩ := maxAlign_header (show buf.length ≤ 32760 by omega)
  have hrange := addWithCheck_range hs.payload_eq
  rw [writePayloadToBuffer_eq (by omega) hmax]
  generalize (alignUp 8 (buf.length : Int)).toNat = init at hinit hdvd ⊢
  by_cases hbegin : init + s.varlenPayloadBegin < 0
  · rw [if_pos hbegin]
    exact iff_of_true hneg (Or.inr (Or.inl hbegin))
  rw [if_neg hbegin, ha.reorder, order_eq]
  have hoff : toFieldOffset (init + s.varlenPayloadBegin - init) = s.varlenPayloadBegin := by
    rw [add_sub_cancel_left, toFieldOffset_of_mem hrange.1 hrange.2]
  have hp : ((resize buf (init + s.varlenPayloadBegin).toNat (0 : Byte)).length : Int) =
      init + s.varlenPayloadBegin := by
    rw [length_resize]
    omega
  have hplaindata := plain_data hlen hnulls
  by_cases hfits : PlainFits l init (init + s.varlenPayloadBegin)
  · obtain ⟨buf₁, hrun, hlen₁, -⟩ := writeFields_plain_fits s.varlenPayloadBegin ha hs
      hfits (storedOrder l) _ hplaindata hp
    have hiff := writeFields_walks hneg herr (hfinal init hdvd hinit) hdvd hinit
      (storable_storedOrder ha hs hlen) _ buf₁ hlen₁ (by omega)
    rw [hoff] at hiff
    rw [Eff.bind_apply, hrun, ← Eff.bind_apply, hiff]
    constructor
    · exact fun h => Or.inr (Or.inr ⟨hfits, h⟩)
    · rintro (h | h | ⟨-, h⟩)
      · exact absurd h hheader
      · exact absurd h hbegin
      · exact h
  · have hout : ∃ i ∈ indices FieldInfo.isPlain l, ∃ f, l[i]? = some f ∧
        init + s.varlenPayloadBegin < init + f.offset + f.typlen := by
      unfold PlainFits at hfits
      push Not at hfits
      obtain ⟨f, hf, hplain, hlt⟩ := hfits
      obtain ⟨i, hi⟩ := List.mem_iff_getElem?.mp hf
      exact ⟨i, mem_indices.mpr ⟨f, hi, hplain⟩, f, hi, hlt⟩
    obtain ⟨buf₁, hrun⟩ := writeFields_plain_outside s.varlenPayloadBegin ha hs
      (storedOrder l) _ hplaindata hout hp
    rw [Eff.bind_of_error hrun]
    refine iff_of_false (herr _) ?_
    rintro (h | h | ⟨h, -⟩)
    · exact hheader h
    · exact hbegin h
    · exact hfits h

theorem writePayloadToBuffer_seen_iff (ha : Arranged s l) (hs : Sectioned s l)
    (hlen : data.length = l.length)
    (hnulls : ∀ (i : Nat) (f : FieldInfo) (d : Datum), l[i]? = some f → data[i]? = some d →
      d.isnull = true → f.isNullable = true) (buf : ByteString) :
    (∃ buf', writePayloadToBuffer s data buf = (.ok (-1), buf')) ↔
      OverflowSeen s data buf.length := by
  have hwalk := writePayloadToBuffer_walk_iff (T := (· = .ok (-1))) rfl nofun
    (fun _ hinit hle => closeAt_noticed_iff hinit hle) ha hs hlen hnulls buf
  have hseen : OverflowSeen s data buf.length ↔ WalkPossible s data
      (fun init p => OffsetAgrees init p ∧ AlignNoticed init 8 p) buf.length := by
    unfold OverflowSeen WalkPossible
    rw [overflowNoticed_iff_storeWalk]
  rw [hseen, ← hwalk]
  exact ⟨fun ⟨buf', h⟩ => congrArg Prod.fst h, fun h => ⟨_, Prod.ext h rfl⟩⟩

def WriteDefined (s : Schema) (data : List Datum) (old : Nat) : Prop :=
  WalkPossible s data OffsetAgrees old

theorem writePayloadToBuffer_returns_iff (ha : Arranged s l) (hs : Sectioned s l)
    (hlen : data.length = l.length)
    (hnulls : ∀ (i : Nat) (f : FieldInfo) (d : Datum), l[i]? = some f → data[i]? = some d →
      d.isnull = true → f.isNullable = true) (buf : ByteString) :
    (∃ len, (writePayloadToBuffer s data buf).1 = .ok len) ↔ WriteDefined s data buf.length :=
  writePayloadToBuffer_walk_iff (T := fun out => ∃ len, out = .ok len) ⟨-1, rfl⟩
    (fun _ ⟨_, h⟩ => nomatch h) (fun _ hinit hle => closeAt_returns_iff hinit hle)
    ha hs hlen hnulls buf

/-- Where the stored fields begin, their null bits and their entries in the end
array are in the buffer. -/
theorem fits_of_payload_eq (ha : Arranged s l) (hs : Sectioned s l) {init : Nat}
    (hpayload : s.varlenPayloadBegin =
      s.varlenEndArrayBegin + 2 * (l.countP FieldInfo.isVarlen : Nat))
    {i : Nat} {f : FieldInfo} (hf : l[i]? = some f) :
    (f.isNullable = true → BitFits s init f (init + s.varlenPayloadBegin)) ∧
      EndFits s init f (init + s.varlenPayloadBegin) := by
  have hnonneg := hs.bitmap_nonneg
  have hle := hs.bitmap_le
  constructor
  · intro hnull
    have hid : 0 ≤ f.nullbitId := by simpa [FieldInfo.isNullable] using hnull
    -- the id is that of a bit of the bitmap or the index of a variable-length field
    have hbound : f.nullbitId < 8 * bitmapSize l ∨
        f.nullbitId < l.countP FieldInfo.isVarlen := by
      cases hv : f.isVarlen with
      | true =>
          right
          rw [ha.nullbit_varlen i f hf (by simp [FieldInfo.isNullableVarlen, hv, hnull])]
          exact_mod_cast rank_lt_countP hf hv
      | false =>
          left
          have hfix : f.isNullableFixed = true := by
            simp [FieldInfo.isNullableFixed, hv, hnull]
          have := (ha.nullbit_fixed_range hf hfix).2
          unfold bitmapSize
          omega
    unfold BitFits
    omega
  · intro hv
    have hrank := rank_lt_countP hf hv
    rw [ha.offset_varlen i f hf hv]
    omega

theorem alignedPos_of_le {init : Nat} {a : Int} (ha : IsAlignment a) (hinit : 8 ∣ init)
    {x : Int} (hx : x ≤ 32767) :
    alignedPos init a.toNat (init + x) = init + alignUp a.toNat x := by
  have hdvd : (a.toNat : Int) ∣ init := ha.dvd (by exact_mod_cast hinit)
  rw [alignedPos, if_pos (by omega), alignUp_add_of_dvd ha.pos hdvd]

theorem toFieldOffset_add_sub {init : Nat} {x : Int} (hx : 0 ≤ x) (hx' : x ≤ 32767) :
    toFieldOffset (init + x - init) = x := by
  rw [add_sub_cancel_left, toFieldOffset_of_mem (by omega) hx']

theorem closeAt_fits {init : Nat} (hinit : 8 ∣ init) (hle : init ≤ 32760) {x : Int}
    (hx : 0 ≤ x) (hfit : init + alignUp 8 x ≤ 32767) {buf : ByteString}
    (hp : (buf.length : Int) = init + x) :
    ∃ buf', closeAt init x buf = (.ok (alignUp 8 x), buf') := by
  have hup := le_alignUp (a := 8) (by decide) x
  have hclose := closeAt_eq hinit hle hp (by omega)
  have hag : OffsetAgrees init (init + x) := Or.inl (by omega)
  have hnot : ¬ AlignNoticed init 8 (init + x) := by
    rw [AlignNoticed, if_pos (by omega), add_sub_cancel_left]
    omega
  have hpos := alignedPos_of_le isAlignment_eight hinit (show x ≤ 32767 by omega)
  change alignedPos init 8 (init + x) = init + alignUp 8 x at hpos
  rw [toFieldOffset_add_sub hx (by omega), if_neg (not_not_intro hag), if_neg hnot, hpos,
    add_sub_cancel_left] at hclose
  exact ⟨_, hclose⟩

theorem writeField_fits {init : Nat} (hinit : 8 ∣ init) (hle : init ≤ 32760) {i : Nat}
    {f : FieldInfo} {d : Datum} (hf : f.Shaped) (hoff : f.offset < 0) {x : Int} (hx : 0 ≤ x)
    (hx' : x ≤ 32767) (hbit : d.isnull = true → BitFits s init f (init + x))
    (hend : EndFits s init f (init + x))
    (hfit : d.isnull = false → init + (alignUp f.typalign.toNat x + storedSize f d) ≤ 32767)
    {buf : ByteString} (hp : (buf.length : Int) = init + x) :
    ∃ buf', writeField s init i f d x buf =
        (.ok (some (if d.isnull then x else alignUp f.typalign.toNat x + storedSize f d)), buf') ∧
      (buf'.length : Int) =
        init + if d.isnull then x else alignUp f.typalign.toNat x + storedSize f d := by
  cases hnull : d.isnull with
  | true =>
      obtain ⟨buf', hrun, hlen, -⟩ :=
        writeField_null_fits (i := i) _ hoff hnull hp (hbit hnull) hend
      exact ⟨buf', hrun, hlen⟩
  | false =>
      have hsum := hfit hnull
      have hge := le_alignUp hf.align.pos x
      have hnarrow : narrowSize f d = storedSize f d :=
        toFieldOffset_of_mem (by omega) (by omega)
      have hag : OffsetAgrees init (init + x) := Or.inl (by omega)
      have hnot : ¬ AlignNoticed init f.typalign.toNat (init + x) := by
        rw [AlignNoticed, if_pos (by omega), add_sub_cancel_left]
        omega
      obtain ⟨buf', hrun, hlen, -⟩ :=
        writeStored_continues hf hinit hle hp (by omega) hoff hnot hend hag
          (show 0 ≤ narrowSize f d by omega)
      rw [alignedPos_of_le hf.align hinit hx', hnarrow] at hrun hlen
      rw [toFieldOffset_add_sub hx hx', add_assoc,
        toFieldOffset_add_sub (by omega) (by omega)] at hrun
      refine ⟨buf', ?_, ?_⟩
      · rw [writeField, if_neg (by omega), hnull, if_neg Bool.false_ne_true]
        exact hrun
      · rw [hlen, add_assoc]
        rfl

theorem writeFields_fits_exact (ha : Arranged s l) (hs : Sectioned s l)
    (hlen : data.length = l.length) {init : Nat} (hinit : 8 ∣ init) (hle : init ≤ 32760)
    {is : List Nat} (hst : Storable s data is) (his : ∀ i ∈ is, i < l.length) {x : Int}
    (hx : 0 ≤ x)
    (hbits : ∀ i ∈ is, (data.getD i .null).isnull = true → BitFits s init (s.fieldAt i) (init + x))
    (hends : ∀ i ∈ is, EndFits s init (s.fieldAt i) (init + x))
    (hfit : init + alignUp 8 (is.foldl (storedStep l data) x) ≤ 32767)
    {buf : ByteString} (hp : (buf.length : Int) = init + x) :
    ∃ buf', (writeFields s init data is x >>= closePayload init) buf =
      (.ok (alignUp 8 (is.foldl (storedStep l data) x)), buf') := by
  induction is generalizing x buf with
  | nil =>
      obtain ⟨buf', hclose⟩ := closeAt_fits hinit hle hx hfit hp
      exact ⟨buf', hclose⟩
  | cons i is ih =>
      have hi := his i List.mem_cons_self
      have hf := List.getElem?_eq_getElem hi
      have hdata := hst.data_lt i List.mem_cons_self
      have hd : data[i]? = some (data.getD i .null) := by
        rw [List.getD_eq_getElem?_getD, List.getElem?_eq_getElem hdata, Option.getD_some]
      have hstep := storedStep_eq hf hd x
      rw [← fieldAt_eq ha hf] at hstep
      have his' : ∀ j ∈ is, j < l.length := fun j hj => his j (List.mem_cons_of_mem i hj)
      have hshape := hst.shaped i List.mem_cons_self
      rw [List.foldl_cons] at hfit ⊢
      have hfold := le_foldl_storedStep hs hlen is his' (storedStep l data x i)
      have hup := le_alignUp (a := 8) (by decide)
        (is.foldl (storedStep l data) (storedStep l data x i))
      have hge : x ≤ storedStep l data x i := by
        rw [hstep]
        split
        · exact le_rfl
        · have := le_alignUp hshape.align.pos x
          omega
      obtain ⟨buf', hrun, hlen'⟩ := writeField_fits (i := i) hinit hle hshape
        (hst.offset_neg i List.mem_cons_self) hx (by omega) (hbits i List.mem_cons_self)
        (hends i List.mem_cons_self) (by
          intro hnull
          rw [hnull, if_neg Bool.false_ne_true] at hstep
          omega) hp
      rw [← hstep] at hrun hlen'
      obtain ⟨buf'', hrest⟩ := ih hst.tail his' (hx.trans hge)
        (fun j hj hnull => by
          have := hbits j (List.mem_cons_of_mem i hj) hnull
          unfold BitFits at this ⊢
          omega)
        (fun j hj hv => by
          have := hends j (List.mem_cons_of_mem i hj) hv
          omega) hfit hlen'
      refine ⟨buf'', ?_⟩
      rw [Eff.bind_apply, writeFields_cons hdata, hrun, ← hrest, Eff.bind_apply]

/-- A payload that fits is written, and the writer returns its exact length. -/
theorem writePayloadToBuffer_exact (ha : Arranged s l) (hs : Sectioned s l)
    (hlen : data.length = l.length)
    (hnulls : ∀ (i : Nat) (f : FieldInfo) (d : Datum), l[i]? = some f → data[i]? = some d →
      d.isnull = true → f.isNullable = true) (buf : ByteString)
    (hfit : exactBufferLength l data buf.length ≤ 32767) :
    ∃ buf', writePayloadToBuffer s data buf = (.ok (exactPayloadLength l data), buf') := by
  have hold := le_alignUp (a := 8) (by decide) (buf.length : Int)
  rw [exactBufferLength] at hfit
  obtain ⟨hpayload, hexact⟩ := hs.exact hlen (by omega)
  have hbegin : 0 ≤ s.varlenPayloadBegin := by
    have h₁ := hs.bitmap_nonneg
    have h₂ := hs.bitmap_le
    omega
  have hfold := le_foldl_storedStep hs hlen (storedOrder l)
    (fun i hi => lt_of_mem_storedOrder hi) s.varlenPayloadBegin
  have hup := le_alignUp (a := 8) (by decide)
    ((storedOrder l).foldl (storedStep l data) s.varlenPayloadBegin)
  rw [storedEnd, List.take_length] at hexact
  have hdvd : (8 : Int) ∣ alignUp 8 buf.length := dvd_alignUp 8 _
  obtain ⟨hmax, hinit, hdvd', hcast⟩ := maxAlign_header (show buf.length ≤ 32760 by omega)
  rw [writePayloadToBuffer_eq (by omega) hmax, if_neg (by omega), ha.reorder, order_eq,
    ← hexact]
  rw [← hcast, ← hexact] at hfit
  generalize (alignUp 8 (buf.length : Int)).toNat = init at hinit hdvd' hfit ⊢
  have hp : ((resize buf (init + s.varlenPayloadBegin).toNat (0 : Byte)).length : Int) =
      init + s.varlenPayloadBegin := by
    rw [length_resize]
    omega
  have hfits : PlainFits l init (init + s.varlenPayloadBegin) := by
    intro f hf hplain
    obtain ⟨i, hi⟩ := List.mem_iff_getElem?.mp hf
    have hslot := (hs.plain_slot hi hplain).2.2
    have := hs.bitmap_le
    omega
  obtain ⟨buf₁, hrun, hlen₁, -⟩ := writeFields_plain_fits s.varlenPayloadBegin ha hs hfits
    (storedOrder l) _ (plain_data hlen hnulls) hp
  rw [Eff.bind_apply, hrun, ← Eff.bind_apply]
  apply writeFields_fits_exact ha hs hlen hdvd' hinit (storable_storedOrder ha hs hlen)
    (fun i hi => lt_of_mem_storedOrder hi) hbegin ?_ ?_ hfit hlen₁
  · intro i hi hnull
    have hlt := lt_of_mem_storedOrder hi
    have hf := List.getElem?_eq_getElem hlt
    rw [fieldAt_eq ha hf]
    apply (fits_of_payload_eq ha hs hpayload hf).1
    have hd := List.getElem?_eq_getElem (l := data) (show i < data.length by omega)
    rw [List.getD_eq_getElem?_getD, hd, Option.getD_some] at hnull
    exact hnulls i _ _ hf hd hnull
  · intro i hi
    have hf := List.getElem?_eq_getElem (lt_of_mem_storedOrder hi)
    rw [fieldAt_eq ha hf]
    exact (fits_of_payload_eq ha hs hpayload hf).2

end Whole

/-- The size limit: `-1` for a buffer that would exceed the largest `FieldOffset`, and
the exact length of the payload otherwise. -/
def SizeLimitKept (s : Schema) (data : List Datum) (buf : ByteString) : Prop :=
  ∃ buf', writePayloadToBuffer s data buf =
    (.ok (if exactBufferLength s.fields data buf.length ≤ 32767
      then exactPayloadLength s.fields data else -1), buf')

/-- The size limit is kept exactly when the buffer fits or its overflow is
noticed. -/
theorem sizeLimitKept_iff {σ : Type} {findType : Nat → Eff Failure σ (Option SysTableType)}
    {builtin : BuiltinTable} {s : Schema} {data : List Datum}
    (hshape : ∀ oid typ, Found findType oid typ → typ.Shaped builtin)
    (hcomp : Computed findType builtin s) (hdata : NullsAllowed s data) (buf : ByteString) :
    SizeLimitKept s data buf ↔
      exactBufferLength s.fields data buf.length ≤ 32767 ∨ OverflowSeen s data buf.length := by
  obtain ⟨l, ha, hs⟩ := hcomp.layout hshape
  obtain ⟨hnum, hnulls⟩ := hdata
  rw [ha.fields_eq] at hnulls
  have hlen : data.length = l.length := by
    rw [← ha.fields_eq, length_fields ha.numFields_nonneg]
    omega
  have hseen := writePayloadToBuffer_seen_iff ha hs hlen hnulls buf
  unfold SizeLimitKept
  rw [ha.fields_eq]
  by_cases hfit : exactBufferLength l data buf.length ≤ 32767
  · rw [if_pos hfit]
    exact ⟨fun _ => Or.inl hfit, fun _ => writePayloadToBuffer_exact ha hs hlen hnulls buf hfit⟩
  · rw [if_neg hfit, hseen]
    exact ⟨Or.inr, fun h => h.resolve_left hfit⟩

/-- The condition at `(7, 'ab', NULL, 9, '')` behind three bytes. -/
theorem sizeLimitKept_iff_sample :
    SizeLimitKept sampleSchema sampleData [1, 2, 3] ↔
      exactBufferLength sampleSchema.fields sampleData 3 ≤ 32767 ∨
        OverflowSeen sampleSchema sampleData 3 :=
  sizeLimitKept_iff documentedBuiltins_shaped sampleSchema_computed sampleData_nullsAllowed
    [1, 2, 3]

def textSchema : Schema :=
  { layoutComputed := true
    hasOnlyNonnullableFixedlenFields := false
    numNonnullableFixedlenFields := 0
    numNullableFixedlenFields := 0
    numVarlenFields := 1
    nullBitmapBegin := 0
    varlenEndArrayBegin := 0
    varlenPayloadBegin := 2
    fieldReorderIdx := [0]
    field := [⟨111, -1, 1, true, 20, -1, -1⟩]
    fieldNames := [] }

theorem textSchema_computed : Computed findTypeInRows documentedBuiltins textSchema :=
  ⟨[111], [20], [false], [], construct [111] [20] [false] [], (), (), rfl, by decide +kernel, rfl⟩

/-- A string whose size is 0 as a `FieldOffset` is written as if it were empty. -/
theorem textSchema_truncates {d : Datum} (hnull : d.isnull = false)
    (hsize : d.getVarlenSize = 65536) :
    NullsAllowed textSchema [d] ∧ ¬ SizeLimitKept textSchema [d] [] := by
  obtain ⟨l, ha, hs⟩ := textSchema_computed.layout documentedBuiltins_shaped
  have hl : l = [⟨111, -1, 1, true, 20, -1, -1⟩] := by
    rw [← ha.fields_eq]
    rfl
  subst hl
  have hnulls : NullsAllowed textSchema [d] := by
    have hnum : textSchema.getNumFields = 1 := by decide
    refine ⟨hnum.symm, fun i f e _ he hnull' => ?_⟩
    rw [List.mem_singleton.mp (List.mem_of_getElem? he), hnull] at hnull'
    cases hnull'
  refine ⟨hnulls, ?_⟩
  have hstored : storedSize ⟨111, -1, 1, true, 20, -1, -1⟩ d = 65536 := hsize
  have hnarrow : narrowSize ⟨111, -1, 1, true, 20, -1, -1⟩ d = 0 := by
    rw [narrowSize, hstored]
    rfl
  have hlong : exactBufferLength [⟨111, -1, 1, true, 20, -1, -1⟩] [d] 0 = 65544 := by
    have hstep : storedStep [⟨111, -1, 1, true, 20, -1, -1⟩] [d] 2 0 = 65538 := by
      rw [storedStep_eq (List.getElem?_cons_zero) (List.getElem?_cons_zero), hnull,
        if_neg Bool.false_ne_true, hstored]
      rfl
    have hfold : exactPayloadLength [⟨111, -1, 1, true, 20, -1, -1⟩] [d] =
        alignUp 8 (storedStep [⟨111, -1, 1, true, 20, -1, -1⟩] [d] 2 0) := rfl
    rw [exactBufferLength, hfold, hstep]
    rfl
  have hnot : ¬ OverflowSeen textSchema [d] 0 := by
    rintro (h | h | ⟨-, h⟩)
    · omega
    · exact absurd h (by decide)
    · have hitems : storedItems textSchema [d] (storedOrder textSchema.fields) =
          [(⟨111, -1, 1, true, 20, -1, -1⟩, d)] := rfl
      rw [hitems, OverflowNoticed, hnull, if_neg Bool.false_ne_true, hnarrow] at h
      rcases h with h | ⟨-, h | ⟨-, -, -, h⟩⟩ <;> exact absurd h (by decide)
  intro hkept
  unfold SizeLimitKept at hkept
  rw [ha.fields_eq] at hkept
  change ∃ buf', writePayloadToBuffer textSchema [d] [] =
    (.ok (if exactBufferLength _ [d] 0 ≤ 32767 then _ else -1), buf') at hkept
  rw [hlong, if_neg (by norm_num), writePayloadToBuffer_seen_iff ha hs rfl
    (by rw [← ha.fields_eq]; exact hnulls.2)] at hkept
  exact hnot hkept

def longText : Datum :=
  .varlen true (List.replicate 65536 0) (by rw [List.length_replicate]; norm_num)

/-- Writing it into an empty buffer does not return `-1`, although the buffer would
exceed the limit. -/
theorem longText_not_sizeLimitKept :
    Computed findTypeInRows documentedBuiltins textSchema ∧
      NullsAllowed textSchema [longText] ∧ ¬ SizeLimitKept textSchema [longText] [] :=
  ⟨textSchema_computed, textSchema_truncates rfl List.length_replicate⟩

end Schema

end Taco
