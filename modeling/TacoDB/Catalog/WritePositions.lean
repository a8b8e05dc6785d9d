import TacoDB.Catalog.RoundTrip

/-!
# The writer beyond the range of a `FieldOffset`

What one iteration of the writer does to a stored field, wherever the buffer
ends. The running offset is the end of the buffer less the header, converted to
16 bits, so everything the writer decides can be told from the number `p` of
bytes in the buffer, in exact arithmetic:

* while `p - init` is in the range of a `FieldOffset` the offset is exact, and
  aligning it is noticed as an overflow when it leaves that range;
* beyond it the offset is 65536 too small, and aligning it is noticed as long as
  the aligned position is below 65536; from there on the writer starts again at
  the beginning of the buffer;
* between the two, where `p` but not `p - init` is out of range, an `ASSERT`
  fails.
-/

namespace Taco

open Rank Alignment Buffer

namespace Schema

/-- Aligning the running offset in a buffer of `p` bytes gives a negative sum. -/
def AlignNoticed (init a : Nat) (p : Int) : Prop :=
  if p - init ≤ 32767 then 32767 < alignUp a (p - init) else alignUp a p < 65536

/-- The position the writer continues at otherwise. -/
def alignedPos (init a : Nat) (p : Int) : Int :=
  if p - init ≤ 32767 then alignUp a p else alignUp a p - 65536

/-- The running offset agrees with the size of the buffer as a `FieldOffset`. -/
def OffsetAgrees (init : Nat) (p : Int) : Prop := p ≤ 32767 ∨ 32767 < p - init

def EndFits (s : Schema) (init : Nat) (f : FieldInfo) (p : Int) : Prop :=
  f.isVarlen = true → 0 ≤ init + s.varlenEndArrayBegin + 2 * (-f.offset - 1) ∧
    init + s.varlenEndArrayBegin + 2 * (-f.offset - 1) + 2 ≤ p

def BitFits (s : Schema) (init : Nat) (f : FieldInfo) (p : Int) : Prop :=
  0 ≤ init + s.nullBitmapBegin + f.nullbitId / 8 ∧
    init + s.nullBitmapBegin + f.nullbitId / 8 + 1 ≤ p

/-- The size of a datum in a field as the writer has it. -/
def narrowSize (f : FieldInfo) (d : Datum) : Int := toFieldOffset (storedSize f d)

def storedBytes (f : FieldInfo) (d : Datum) : ByteString :=
  resize (if f.typlen = -1 ∨ f.typbyref then d.getVarlenBytes else d.getFixedlenBytes)
    (narrowSize f d).toNat 0

def storedFin (f : FieldInfo) (d : Datum) (init : Nat) (p : Int) : Int :=
  typeAlign f.typalign (toFieldOffset (p - init)) + narrowSize f d

instance (init a : Nat) (p : Int) : Decidable (AlignNoticed init a p) :=
  inferInstanceAs
    (Decidable (if p - init ≤ 32767 then 32767 < alignUp a (p - init) else alignUp a p < 65536))

instance (init : Nat) (p : Int) : Decidable (OffsetAgrees init p) :=
  inferInstanceAs (Decidable (p ≤ 32767 ∨ 32767 < p - init))

section

variable {s : Schema} {init : Nat} {f : FieldInfo} {d : Datum} {p : Int} {buf : ByteString}

theorem add_typeAlign_neg {a : Int} (ha : IsAlignment a) (hinit : 8 ∣ init)
    (hle : init ≤ 32760) (hp : 0 ≤ p) (hp' : p ≤ 65535)
    (h : AlignNoticed init a.toNat p) :
    init + typeAlign a (toFieldOffset (p - init)) < 0 := by
  have hdvd : (a.toNat : Int) ∣ init := ha.dvd (by exact_mod_cast hinit)
  have hge := le_alignUp ha.pos (p - init)
  have hpos := alignUp_add_of_dvd ha.pos hdvd (p - init)
  rw [add_sub_cancel] at hpos
  unfold AlignNoticed at h
  rw [typeAlign_eq ha]
  split at h
  · have htop := alignUp_le_of_dvd ha.pos (ha.dvd (by decide : (8 : Int) ∣ 32768))
      (show p - init ≤ 32768 by omega)
    rw [toFieldOffset_of_mem (x := p - init) (by omega) (by omega), toFieldOffset_eq]
    omega
  · have hoff : toFieldOffset (p - init) = -65536 + (p - init) := by
      rw [toFieldOffset_eq]
      omega
    rw [hoff, alignUp_add_of_dvd ha.pos (ha.dvd (by decide)), toFieldOffset_eq]
    omega

theorem add_typeAlign_pos {a : Int} (ha : IsAlignment a) (hinit : 8 ∣ init)
    (hle : init ≤ 32760) (hp : 0 ≤ p) (hp' : p ≤ 65535)
    (h : ¬ AlignNoticed init a.toNat p) :
    init + typeAlign a (toFieldOffset (p - init)) = alignedPos init a.toNat p ∧
      0 ≤ alignedPos init a.toNat p ∧
      (OffsetAgrees init p → alignedPos init a.toNat p ≤ 32768) := by
  have hdvd : (a.toNat : Int) ∣ init := ha.dvd (by exact_mod_cast hinit)
  have hge := le_alignUp ha.pos (p - init)
  have hpos := alignUp_add_of_dvd ha.pos hdvd (p - init)
  rw [add_sub_cancel] at hpos
  have htop : p ≤ 32767 → alignUp a.toNat p ≤ 32768 := fun hlt =>
    alignUp_le_of_dvd ha.pos (ha.dvd (by decide : (8 : Int) ∣ 32768)) (by omega)
  unfold AlignNoticed at h
  unfold alignedPos OffsetAgrees
  rw [typeAlign_eq ha]
  by_cases hcase : p - init ≤ 32767
  · rw [if_pos hcase] at h ⊢
    rw [toFieldOffset_of_mem (x := p - init) (by omega) (by omega),
      toFieldOffset_of_mem (by omega) (by omega)]
    omega
  · rw [if_neg hcase] at h ⊢
    have hoff : toFieldOffset (p - init) = -65536 + (p - init) := by
      rw [toFieldOffset_eq]
      omega
    have hend := alignUp_le_of_dvd ha.pos (ha.dvd (by decide : (8 : Int) ∣ 65536))
      (show p ≤ 65536 by omega)
    rw [hoff, alignUp_add_of_dvd ha.pos (ha.dvd (by decide)),
      toFieldOffset_of_mem (by omega) (by omega)]
    omega

theorem offset_agrees_iff (hinit : init ≤ 32760) (hp : 0 ≤ p) (hp' : p ≤ 65535) :
    toFieldOffset (p - init) + init = toFieldOffset p ↔ OffsetAgrees init p := by
  unfold OffsetAgrees
  rw [toFieldOffset_eq, toFieldOffset_eq]
  omega

theorem fieldLen_eq_narrowSize (hf : f.Shaped) :
    (if f.typlen = -1 then toFieldOffset d.getVarlenSize else f.typlen) = narrowSize f d := by
  unfold narrowSize storedSize
  by_cases hvar : f.typlen = -1
  · simp [FieldInfo.isVarlen, hvar]
  · have hv : f.isVarlen = false := by simp [FieldInfo.isVarlen, hvar]
    have hlen := hf.typlen hv
    rw [if_neg hvar, hv, if_neg Bool.false_ne_true, Int.toNat_of_nonneg hlen.1,
      toFieldOffset_of_mem (by omega) hlen.2]

theorem copyBytes_narrow (hf : f.Shaped) (src : ByteString) :
    copyBytes f.typbyref (narrowSize f d) src =
      if narrowSize f d < 0 then .error (.undefined "memcpy of a negative length")
      else .ok (resize src (narrowSize f d).toNat 0) := by
  unfold copyBytes
  cases hbyref : f.typbyref with
  | true => rw [if_pos rfl]
  | false =>
      have hvar : f.isVarlen = false := by
        cases hv : f.isVarlen
        · rfl
        · rw [hf.byref hv] at hbyref
          cases hbyref
      rw [if_neg Bool.false_ne_true]
      unfold narrowSize storedSize
      rw [hvar, if_neg Bool.false_ne_true]
      rcases hf.byval hbyref with h | h | h | h <;> rw [h] <;> rfl

theorem store_outside {pos : Int} {bytes : ByteString}
    (h : ¬ (0 ≤ pos ∧ pos + bytes.length ≤ buf.length)) :
    store pos bytes buf = (.error (.undefined "write out of bounds"), buf) := by
  unfold store
  rw [if_neg h]

theorem setVarlenEnd_outside (hp : (buf.length : Int) = p) (hend : ¬ EndFits s init f p)
    (fin : Int) : setVarlenEnd s init f fin buf =
      (.error (.undefined "write out of bounds"), buf) := by
  unfold EndFits at hend
  rw [Classical.not_imp] at hend
  obtain ⟨hvar, hout⟩ := hend
  have hlen : f.typlen = -1 := by simpa [FieldInfo.isVarlen] using hvar
  rw [setVarlenEnd, if_pos hlen]
  apply store_outside
  rw [fieldOffsetBytes, LittleEndian.length_leBytes, hp]
  exact hout

section Stored

variable (hf : f.Shaped) (hinit : 8 ∣ init) (hle : init ≤ 32760) (hp : (buf.length : Int) = p)
  (hp' : p ≤ 65535)

include hf hinit hle hp hp'

theorem writeStored_alignNoticed (h : AlignNoticed init f.typalign.toNat p) :
    writeStored s init f d (toFieldOffset (p - init)) buf = (.ok none, buf) := by
  unfold writeStored
  dsimp only
  rw [if_pos (add_typeAlign_neg hf.align hinit hle (by omega) hp' h)]
  rfl

theorem writeStored_endOutside (h : ¬ AlignNoticed init f.typalign.toNat p)
    (hend : ¬ EndFits s init f p) :
    writeStored s init f d (toFieldOffset (p - init)) buf =
      (.error (.undefined "write out of bounds"), buf) := by
  obtain ⟨hpos, hnonneg, -⟩ := add_typeAlign_pos hf.align hinit hle (by omega) hp' h
  unfold writeStored
  dsimp only
  rw [if_neg (by omega)]
  exact Eff.bind_of_error (setVarlenEnd_outside hp hend _) _

theorem writeStored_eq (h : ¬ AlignNoticed init f.typalign.toNat p)
    (hend : EndFits s init f p) :
    writeStored s init f d (toFieldOffset (p - init)) buf =
      (if alignedPos init f.typalign.toNat p + narrowSize f d < 0 then
        (.ok none, noteEnd s init f (storedFin f d init p) buf)
      else if ¬ OffsetAgrees init p then
        (.error (.assertion "off + init_len == buf.size()"),
          noteEnd s init f (storedFin f d init p) buf)
      else if narrowSize f d < 0 then
        (.error (.undefined "memcpy of a negative length"),
          resize (noteEnd s init f (storedFin f d init p) buf)
            (alignedPos init f.typalign.toNat p + narrowSize f d).toNat 0)
      else
        (.ok (some (toFieldOffset
            (alignedPos init f.typalign.toNat p + narrowSize f d - init))),
          overwrite (resize (noteEnd s init f (storedFin f d init p) buf)
              (alignedPos init f.typalign.toNat p + narrowSize f d).toNat 0)
            (alignedPos init f.typalign.toNat p).toNat (storedBytes f d))) := by
  obtain ⟨hpos, hnonneg, -⟩ := add_typeAlign_pos hf.align hinit hle (by omega) hp' h
  have hagree := offset_agrees_iff hle (by omega : 0 ≤ p) hp'
  have hinside : EndInside s init f buf := by
    unfold EndInside
    rw [hp]
    exact hend
  have hlen := length_noteEnd (storedFin f d init p) hinside
  unfold storedFin at hlen ⊢
  set newoff := typeAlign f.typalign (toFieldOffset (p - init)) with hnewoff
  set pos := alignedPos init f.typalign.toNat p with hposdef
  unfold writeStored
  simp only [fieldLen_eq_narrowSize hf, ← hnewoff]
  rw [if_neg (by omega), Eff.bind_of_ok (setVarlenEnd_of_inside hinside), hpos]
  by_cases hneg : pos + narrowSize f d < 0
  · rw [if_pos hneg, if_pos hneg]
    rfl
  rw [if_neg hneg, if_neg hneg, Eff.bind_of_ok (Eff.getState_apply _), hlen, hp]
  by_cases hag : OffsetAgrees init p
  · rw [if_neg (not_not_intro hag), assert, if_pos (by simpa using hagree.mpr hag),
      Eff.bind_of_ok (Eff.pure_apply _ _), Eff.bind_of_ok (resizeBuf_apply _ _),
      copyBytes_narrow hf, show newoff + narrowSize f d + init = pos + narrowSize f d by omega]
    by_cases hn : narrowSize f d < 0
    · rw [if_pos hn, if_pos hn]
      exact Eff.bind_of_error (Eff.ofExcept_apply _ _) _
    · rw [if_neg hn, if_neg hn, Eff.bind_of_ok (Eff.ofExcept_apply _ _),
        Eff.bind_of_ok (store_of_le hnonneg ?_),
        show newoff + narrowSize f d = pos + narrowSize f d - init by omega]
      · rfl
      · rw [length_resize, length_resize]
        omega
  · rw [if_pos hag, assert, if_neg (by simpa using fun h => hag (hagree.mp h))]
    exact Eff.bind_of_error (Eff.fail_apply _ _) _

/-- A field that is stored: the buffer then ends behind it, and keeps what lies in
front of both the field and the end array. -/
theorem writeStored_continues (hoff : f.offset < 0)
    (h : ¬ AlignNoticed init f.typalign.toNat p) (hend : EndFits s init f p)
    (hag : OffsetAgrees init p) (hn : 0 ≤ narrowSize f d) :
    ∃ buf', writeStored s init f d (toFieldOffset (p - init)) buf =
        (.ok (some (toFieldOffset
          (alignedPos init f.typalign.toNat p + narrowSize f d - init))), buf') ∧
      (buf'.length : Int) = alignedPos init f.typalign.toNat p + narrowSize f d ∧
      ∀ k : Nat, k < alignedPos init f.typalign.toNat p → k < p →
        k < init + s.varlenEndArrayBegin → buf'[k]? = buf[k]? := by
  obtain ⟨-, hpos, -⟩ := add_typeAlign_pos hf.align hinit hle (by omega) hp' h
  have heq := writeStored_eq (d := d) hf hinit hle hp hp' h hend
  have hinside : EndInside s init f buf := by
    unfold EndInside
    rw [hp]
    exact hend
  have hbytes : (storedBytes f d).length = (narrowSize f d).toNat := length_resize _ _ _
  generalize alignedPos init f.typalign.toNat p = pos at heq hpos ⊢
  generalize narrowSize f d = n at heq hn hbytes ⊢
  rw [if_neg (by omega), if_neg (not_not_intro hag), if_neg (by omega)] at heq
  refine ⟨_, heq, ?_, ?_⟩
  · rw [length_overwrite (by rw [length_resize, hbytes]; omega), length_resize]
    omega
  · intro k hk hkp hka
    have hlen := length_noteEnd (storedFin f d init p) hinside
    rw [getElem?_overwrite (by rw [length_resize, hbytes]; omega), if_neg (by omega),
      getElem?_resize _ _ (by omega), if_pos (by omega),
      getElem?_noteEnd hinside (fun _ => Or.inl (by omega))]

theorem writeStored_ends (h : ¬ AlignNoticed init f.typalign.toNat p)
    (hend : EndFits s init f p) :
    (alignedPos init f.typalign.toNat p + narrowSize f d < 0 →
      writeStored s init f d (toFieldOffset (p - init)) buf =
        (.ok none, noteEnd s init f (storedFin f d init p) buf)) ∧
    (0 ≤ alignedPos init f.typalign.toNat p + narrowSize f d → ¬ OffsetAgrees init p →
      writeStored s init f d (toFieldOffset (p - init)) buf =
        (.error (.assertion "off + init_len == buf.size()"),
          noteEnd s init f (storedFin f d init p) buf)) ∧
    (0 ≤ alignedPos init f.typalign.toNat p + narrowSize f d → OffsetAgrees init p →
      narrowSize f d < 0 → ∃ buf', writeStored s init f d (toFieldOffset (p - init)) buf =
        (.error (.undefined "memcpy of a negative length"), buf')) := by
  have heq := writeStored_eq (d := d) hf hinit hle hp hp' h hend
  refine ⟨fun hneg => ?_, fun hnonneg hag => ?_, fun hnonneg hag hn => ?_⟩
  · rw [heq, if_pos hneg]
  · rw [heq, if_neg (by omega), if_pos hag]
  · rw [if_neg (by omega), if_neg (not_not_intro hag), if_pos hn] at heq
    exact ⟨_, heq⟩

end Stored

def bitPos (s : Schema) (init : Nat) (f : FieldInfo) : Nat :=
  (init + s.nullBitmapBegin + f.nullbitId / 8).toNat

theorem setNullBit_of_fits (hp : (buf.length : Int) = p) (hbit : BitFits s init f p) :
    ∃ b, buf[bitPos s init f]? = some b ∧
      setNullBit (init + s.nullBitmapBegin) f.nullbitId buf =
        (.ok (), overwrite buf (bitPos s init f)
          [b ||| BitVec.ofNat 8 (2 ^ (f.nullbitId % 8).toNat)]) := by
  obtain ⟨hge, hlt⟩ := hbit
  unfold bitPos
  set pos := (init + s.nullBitmapBegin + f.nullbitId / 8 : Int) with hpos
  have hlen : pos.toNat < buf.length := by omega
  have hload : Datum.load buf pos 1 = .ok [buf.get ⟨pos.toNat, hlen⟩] := by
    unfold Datum.load
    rw [if_pos ⟨hge, by rw [hp]; exact_mod_cast hlt⟩, slice, List.drop_eq_getElem_cons hlen]
    rfl
  refine ⟨buf.get ⟨pos.toNat, hlen⟩, List.getElem?_eq_getElem hlen, ?_⟩
  unfold setNullBit
  rw [Eff.bind_of_ok (Eff.getState_apply _), ← hpos, hload,
    Eff.bind_of_ok (Eff.ofExcept_apply _ _), List.map_cons, List.map_nil, store_of_le hge]
  rw [List.length_singleton, hp]
  exact_mod_cast hlt

theorem setNullBit_outside (hp : (buf.length : Int) = p) (hbit : ¬ BitFits s init f p) :
    setNullBit (init + s.nullBitmapBegin) f.nullbitId buf =
      (.error (.undefined "read out of bounds"), buf) := by
  unfold setNullBit
  rw [Eff.bind_of_ok (Eff.getState_apply _)]
  apply Eff.bind_of_error
  rw [Eff.ofExcept_apply, Datum.load, if_neg]
  rw [hp]
  exact hbit

/-- A NULL in a field without a fixed offset sets its bit, and a variable-length
field ends where it begins. -/
theorem writeField_null_eq {i : Nat} (off : Int) (hoff : f.offset < 0)
    (hnull : d.isnull = true) (hp : (buf.length : Int) = p) (hbit : BitFits s init f p)
    (hend : EndFits s init f p) :
    ∃ b, buf[bitPos s init f]? = some b ∧ writeField s init i f d off buf =
      (.ok (some off), noteEnd s init f off (overwrite buf (bitPos s init f)
        [b ||| BitVec.ofNat 8 (2 ^ (f.nullbitId % 8).toNat)])) := by
  obtain ⟨b, hb, hset⟩ := setNullBit_of_fits hp hbit
  refine ⟨b, hb, ?_⟩
  have hinside : EndInside s init f (overwrite buf (bitPos s init f)
      [b ||| BitVec.ofNat 8 (2 ^ (f.nullbitId % 8).toNat)]) := by
    unfold EndInside
    rw [length_overwrite (List.getElem?_eq_some_iff.mp hb).1, hp]
    exact hend
  unfold writeField
  rw [if_neg (by omega), hnull, if_pos rfl, Eff.bind_of_ok hset,
    Eff.bind_of_ok (setVarlenEnd_of_inside hinside)]
  rfl

/-- The buffer then keeps its size, and what lies in front of the bitmap and the end
array. -/
theorem writeField_null_fits {i : Nat} (off : Int) (hoff : f.offset < 0)
    (hnull : d.isnull = true) (hp : (buf.length : Int) = p) (hbit : BitFits s init f p)
    (hend : EndFits s init f p) :
    ∃ buf', writeField s init i f d off buf = (.ok (some off), buf') ∧
      (buf'.length : Int) = p ∧
      ∀ k : Nat, k < init + s.nullBitmapBegin + f.nullbitId / 8 →
        k < init + s.varlenEndArrayBegin → buf'[k]? = buf[k]? := by
  obtain ⟨b, hb, hrun⟩ := writeField_null_eq (i := i) off hoff hnull hp hbit hend
  have hlt := (List.getElem?_eq_some_iff.mp hb).1
  have hlen := length_overwrite (l := buf) (i := bitPos s init f)
    (show _ + [b ||| BitVec.ofNat 8 (2 ^ (f.nullbitId % 8).toNat)].length ≤ _ from hlt)
  have hinside : EndInside s init f (overwrite buf (bitPos s init f)
      [b ||| BitVec.ofNat 8 (2 ^ (f.nullbitId % 8).toNat)]) := by
    unfold EndInside
    rw [hlen, hp]
    exact hend
  refine ⟨_, hrun, ?_, ?_⟩
  · rw [length_noteEnd _ hinside, hlen, hp]
  · intro k hk hk'
    have hne : k < bitPos s init f := by
      unfold bitPos
      omega
    rw [getElem?_noteEnd hinside (fun _ => Or.inl (by omega)), getElem?_overwrite hlt,
      if_neg (by omega)]

theorem writeField_null_outside {i : Nat} (off : Int) (hoff : f.offset < 0)
    (hnull : d.isnull = true) (hp : (buf.length : Int) = p)
    (h : ¬ (BitFits s init f p ∧ EndFits s init f p)) :
    ∃ what buf', writeField s init i f d off buf = (.error (.undefined what), buf') := by
  unfold writeField
  rw [if_neg (by omega), hnull, if_pos rfl]
  by_cases hbit : BitFits s init f p
  · obtain ⟨b, hb, hset⟩ := setNullBit_of_fits hp hbit
    have hlen := length_overwrite (l := buf)
      (show _ + [b ||| BitVec.ofNat 8 (2 ^ (f.nullbitId % 8).toNat)].length ≤ _ from
        (List.getElem?_eq_some_iff.mp hb).1)
    rw [Eff.bind_of_ok hset]
    exact ⟨_, _, Eff.bind_of_error (setVarlenEnd_outside (by rw [hlen]; exact hp)
      (fun hend => h ⟨hbit, hend⟩) _) _⟩
  · exact ⟨_, _, Eff.bind_of_error (setNullBit_outside hp hbit) _⟩

theorem writeField_plain_outside {i : Nat} {off : Int} (hf : f.Shaped)
    (hvar : f.isVarlen = false) (hoff : 0 ≤ f.offset) (hnull : d.isnull = false)
    (hp : (buf.length : Int) = p) (hout : p < init + f.offset + f.typlen) :
    writeField s init i f d off buf = (.error (.undefined "write out of bounds"), buf) := by
  have hsize : (storedSize f d : Int) = f.typlen := by
    have := (hf.typlen hvar).1
    rw [storedSize, hvar, if_neg Bool.false_ne_true]
    omega
  have hcopy := copyBytes_shaped hf d
    (if f.typbyref then d.getVarlenBytes else d.getFixedlenBytes)
  rw [hsize] at hcopy
  unfold writeField
  simp only [hnull, if_pos hoff, Bool.false_eq_true, if_false]
  rw [hcopy, Eff.bind_of_ok (Eff.ofExcept_apply _ _)]
  apply Eff.bind_of_error
  apply store_outside
  rw [length_resize]
  omega

def PlainFits (l : List FieldInfo) (init : Nat) (p : Int) : Prop :=
  ∀ f ∈ l, f.isPlain = true → init + f.offset + f.typlen ≤ p

section Plain

variable {l : List FieldInfo} {data : List Datum} (off : Int)

theorem writeFields_of_writeField {i : Nat} {is : List Nat} {buf' : ByteString}
    (ha : Arranged s l) (hf : l[i]? = some f) (hd : data[i]? = some d)
    (h : writeField s init i f d off buf = (.ok (some off), buf')) :
    writeFields s init data (i :: is) off buf = writeFields s init data is off buf' := by
  rw [writeFields, hd, fieldAt_eq ha hf]
  dsimp only
  rw [Eff.bind_of_ok h]

/-- With all slots in the buffer the fields with a fixed offset are written, and
the buffer keeps its size and the header. -/
theorem writeFields_plain_fits (ha : Arranged s l) (hs : Sectioned s l)
    (hfits : PlainFits l init p) (rest is : List Nat)
    (his : ∀ i ∈ is, ∃ f d, l[i]? = some f ∧ f.isPlain = true ∧
      data[i]? = some d ∧ d.isnull = false)
    {buf : ByteString} (hp : (buf.length : Int) = p) :
    ∃ buf', writeFields s init data (is ++ rest) off buf = writeFields s init data rest off buf' ∧
      (buf'.length : Int) = p ∧ ∀ k < init, buf'[k]? = buf[k]? := by
  induction is generalizing buf with
  | nil => exact ⟨buf, rfl, hp, fun _ _ => rfl⟩
  | cons i is ih =>
      obtain ⟨f, d, hf, hplain, hd, hnull⟩ := his i List.mem_cons_self
      have hmem := List.mem_of_getElem? hf
      have hshape := hs.shaped f hmem
      have hoff := ha.offset_plain i f hf hplain
      have hsize := storedSize_plain hshape hplain d
      have hslot := hfits f hmem hplain
      have hle : (init + f.offset).toNat + (image f d).length ≤ buf.length := by
        rw [length_image]
        omega
      obtain ⟨buf', hrun, hlen, hframe⟩ :=
        ih (fun j hj => his j (List.mem_cons_of_mem i hj))
          (show ((overwrite buf (init + f.offset).toNat (image f d)).length : Int) = p by
            rw [length_overwrite hle, hp])
      refine ⟨buf', ?_, hlen, ?_⟩
      · rw [List.cons_append, writeFields_of_writeField off ha hf hd (writeField_plain hshape
          (FieldInfo.isVarlen_of_isPlain hplain) hoff hnull (by omega)), hrun]
      · intro k hk
        rw [hframe k hk, getElem?_overwrite hle, if_neg (by omega)]

/-- Otherwise the first field without its slot is written outside the buffer. -/
theorem writeFields_plain_outside (ha : Arranged s l) (hs : Sectioned s l)
    (rest is : List Nat)
    (his : ∀ i ∈ is, ∃ f d, l[i]? = some f ∧ f.isPlain = true ∧
      data[i]? = some d ∧ d.isnull = false)
    (hout : ∃ i ∈ is, ∃ f, l[i]? = some f ∧ p < init + f.offset + f.typlen)
    {buf : ByteString} (hp : (buf.length : Int) = p) :
    ∃ buf', writeFields s init data (is ++ rest) off buf =
      (.error (.undefined "write out of bounds"), buf') := by
  induction is generalizing buf with
  | nil =>
      obtain ⟨i, hi, -⟩ := hout
      cases hi
  | cons i is ih =>
      obtain ⟨f, d, hf, hplain, hd, hnull⟩ := his i List.mem_cons_self
      have hshape := hs.shaped f (List.mem_of_getElem? hf)
      have hvar := FieldInfo.isVarlen_of_isPlain hplain
      have hoff := ha.offset_plain i f hf hplain
      have hsize := storedSize_plain hshape hplain d
      by_cases hslot : p < init + f.offset + f.typlen
      · refine ⟨buf, ?_⟩
        rw [List.cons_append, writeFields, hd, fieldAt_eq ha hf]
        exact Eff.bind_of_error
          (writeField_plain_outside hshape hvar hoff hnull hp hslot) _
      · have hle : (init + f.offset).toNat + (image f d).length ≤ buf.length := by
          rw [length_image]
          omega
        have hout' : ∃ j ∈ is, ∃ g, l[j]? = some g ∧ p < init + g.offset + g.typlen := by
          obtain ⟨j, hj, g, hg, hlt⟩ := hout
          rcases List.mem_cons.mp hj with rfl | hj
          · rw [hf] at hg
            cases hg
            exact absurd hlt hslot
          · exact ⟨j, hj, g, hg, hlt⟩
        obtain ⟨buf', hrun⟩ := ih (fun j hj => his j (List.mem_cons_of_mem i hj)) hout'
          (show ((overwrite buf (init + f.offset).toNat (image f d)).length : Int) = p by
            rw [length_overwrite hle, hp])
        exact ⟨buf', by rw [List.cons_append, writeFields_of_writeField off ha hf hd
          (writeField_plain hshape hvar hoff hnull (by omega)), hrun]⟩

end Plain

end

end Schema

end Taco
