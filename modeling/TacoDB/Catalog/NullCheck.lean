import TacoDB.Catalog.SizeLimit

/-!
# NULL in a field that is not nullable

`WritePayloadToBuffer` checks for a NULL only in the fields with a fixed offset. A
NULL in a non-nullable variable-length field sets bit 7 of the byte in front of the
null bitmap, which may be the last byte of the header, and an overflow that is not
noticed can let the writer start again at the beginning of the buffer. `HeaderSafe`
says when neither happens.

That a header is changed cannot be seen on one header, since the byte written over
it may be the one that was there. `Twins` are two headers that differ in one bit;
once the writer has written over it the two runs are the same, so one of them ends
with a changed header.
-/

namespace Taco

open Rank Alignment Buffer

namespace Schema

def NullMisplaced (s : Schema) (data : List Datum) : Prop :=
  ∃ (i : Nat) (f : FieldInfo) (d : Datum), s.fields[i]? = some f ∧ data[i]? = some d ∧
    d.isnull = true ∧ f.isNullable = false

/-- An outcome of the writer on a buffer that begins with a header of `h` bytes: it
is defined, the header is what it was, and it is an error if `refuse` holds. -/
structure Kept (h : Nat) (refuse : Prop) (buf : ByteString)
    (out : Except Failure Int × ByteString) : Prop where
  defined : ∀ what, out.1 ≠ .error (.undefined what)
  header : ∀ k < h, out.2[k]? = buf[k]?
  refused : refuse → ∃ e, out.1 = .error e

/-- The writer treats a header of `h` bytes well while it writes `items` into the `p`
bytes of the buffer, and when it closes the payload. -/
def HeaderSafe (s : Schema) (init h : Nat) (refuse : Prop) :
    Int → List (FieldInfo × Datum) → Prop
  | p, [] =>
      ¬ OffsetAgrees init p ∨
        (¬ refuse ∧ (AlignNoticed init 8 p ∨ init ≤ alignedPos init 8 p))
  | p, (f, d) :: items =>
      if 0 ≤ f.offset then
        d.isnull = true ∨
          (init + f.offset + f.typlen ≤ p ∧ HeaderSafe s init h refuse p items)
      else if d.isnull then
        (BitFits s init f p ∧ EndFits s init f p) ∧ h ≤ bitPos s init f ∧
          HeaderSafe s init h refuse p items
      else if AlignNoticed init f.typalign.toNat p then ¬ refuse
      else
        EndFits s init f p ∧
          if alignedPos init f.typalign.toNat p + narrowSize f d < 0 then ¬ refuse
          else ¬ OffsetAgrees init p ∨
            (0 ≤ narrowSize f d ∧ init ≤ alignedPos init f.typalign.toNat p ∧
              HeaderSafe s init h refuse
                (alignedPos init f.typalign.toNat p + narrowSize f d) items)

structure Listed (s : Schema) (data : List Datum) (is : List Nat) : Prop where
  shaped : ∀ i ∈ is, (s.fieldAt i).Shaped
  plain : ∀ i ∈ is, 0 ≤ (s.fieldAt i).offset → (s.fieldAt i).isVarlen = false
  nullbit : ∀ i ∈ is, -1 ≤ (s.fieldAt i).nullbitId
  data_lt : ∀ i ∈ is, i < data.length

theorem Listed.tail {s : Schema} {data : List Datum} {i : Nat} {is : List Nat}
    (h : Listed s data (i :: is)) : Listed s data is :=
  ⟨fun j hj => h.shaped j (List.mem_cons_of_mem i hj),
    fun j hj => h.plain j (List.mem_cons_of_mem i hj),
    fun j hj => h.nullbit j (List.mem_cons_of_mem i hj),
    fun j hj => h.data_lt j (List.mem_cons_of_mem i hj)⟩

section

variable {s : Schema} {init h : Nat} {refuse : Prop} {data : List Datum} {p : Int}

theorem Kept.of_frame {buf buf' : ByteString} {out : Except Failure Int × ByteString}
    (hframe : ∀ k < h, buf'[k]? = buf[k]?) (hk : Kept h refuse buf' out) :
    Kept h refuse buf out :=
  ⟨hk.defined, fun k hk' => (hk.header k hk').trans (hframe k hk'), hk.refused⟩

theorem kept_refusal {buf buf' : ByteString} {e : Failure} (he : ∀ what, e ≠ .undefined what)
    (hframe : ∀ k < h, buf'[k]? = buf[k]?) :
    Kept h refuse buf (.error e, buf') :=
  ⟨fun what hw => he what (Except.error.inj hw), hframe, fun _ => ⟨e, rfl⟩⟩

theorem kept_value {buf buf' : ByteString} {x : Int} (hr : ¬ refuse)
    (hframe : ∀ k < h, buf'[k]? = buf[k]?) : Kept h refuse buf (.ok x, buf') :=
  ⟨fun _ hw => (by cases hw), hframe, fun hr' => absurd hr' hr⟩

theorem writeField_refuses (s : Schema) (init i : Nat) {f : FieldInfo} {d : Datum} (off : Int)
    (hoff : 0 ≤ f.offset) (hnull : d.isnull = true) (buf : ByteString) :
    ∃ msg, writeField s init i f d off buf = (.error (.tdbError .kError msg), buf) := by
  unfold writeField
  rw [if_pos hoff, hnull, if_pos rfl]
  exact ⟨_, rfl⟩

theorem writeField_slot {i : Nat} {f : FieldInfo} {d : Datum} (off : Int) {buf : ByteString}
    (hf : f.Shaped) (hvar : f.isVarlen = false) (hoff : 0 ≤ f.offset)
    (hnull : d.isnull = false) (hp : (buf.length : Int) = p)
    (hslot : init + f.offset + f.typlen ≤ p) :
    writeField s init i f d off buf =
        (.ok (some off), overwrite buf (init + f.offset).toNat (image f d)) ∧
      (init + f.offset).toNat + (image f d).length ≤ buf.length := by
  have hsize : (storedSize f d : Int) = f.typlen := by
    have := (hf.typlen hvar).1
    rw [storedSize, hvar, if_neg Bool.false_ne_true]
    omega
  refine ⟨writeField_plain hf hvar hoff hnull (by omega), ?_⟩
  rw [length_image]
  omega

theorem writeField_value {i : Nat} {f : FieldInfo} {d : Datum} {off : Int} {buf : ByteString}
    (hoff : ¬ 0 ≤ f.offset) (hnull : d.isnull = false) :
    writeField s init i f d off buf = writeStored s init f d off buf := by
  rw [writeField, if_neg hoff, hnull, if_neg Bool.false_ne_true]

theorem header_noteEnd {f : FieldInfo} (fin : Int) {buf : ByteString} (hh : h ≤ init)
    (harr : 0 ≤ s.varlenEndArrayBegin) (hoff : ¬ 0 ≤ f.offset) (hp : (buf.length : Int) = p)
    (hend : EndFits s init f p) :
    ∀ k < h, (noteEnd s init f fin buf)[k]? = buf[k]? := by
  intro k hk
  apply getElem?_noteEnd
  · unfold EndInside
    rw [hp]
    exact hend
  · exact fun _ => Or.inl (by omega)

/-- A value that is stored behind the header leaves it as it is. -/
theorem header_stored {f : FieldInfo} (fin : Int) {buf bytes : ByteString} {pos n : Int}
    (hh : h ≤ init) (harr : 0 ≤ s.varlenEndArrayBegin) (hoff : ¬ 0 ≤ f.offset)
    (hp : (buf.length : Int) = p) (hph : h ≤ p) (hend : EndFits s init f p) (hpos : h ≤ pos)
    (hn : 0 ≤ n) (hbytes : bytes.length = n.toNat) :
    ∀ k < h, (overwrite (resize (noteEnd s init f fin buf) (pos + n).toNat 0) pos.toNat bytes)[k]? =
      buf[k]? := by
  intro k hk
  have hkeep := header_noteEnd fin hh harr hoff hp hend k hk
  have hfit : pos.toNat + bytes.length ≤
      (resize (noteEnd s init f fin buf) (pos + n).toNat 0).length := by
    rw [length_resize]
    omega
  have hk' : k < (noteEnd s init f fin buf).length := by
    have hsome : buf[k]? = some buf[k] := List.getElem?_eq_getElem (by omega)
    rw [← hkeep] at hsome
    exact (List.getElem?_eq_some_iff.mp hsome).1
  rw [getElem?_overwrite hfit, if_neg (by omega), getElem?_resize _ _ (by omega), if_pos hk', hkeep]

/-- A run that keeps the header wherever `items`, which are before it, treat it well. -/
def KeptBy (s : Schema) (init h : Nat) (refuse : Prop) (k : Int → Eff Failure ByteString Int)
    (items : List (FieldInfo × Datum)) : Prop :=
  ∀ (p : Int) (buf : ByteString), (buf.length : Int) = p → p ≤ 65535 → h ≤ p →
    HeaderSafe s init h refuse p items → Kept h refuse buf (k (toFieldOffset (p - init)) buf)

namespace KeptBy

variable {k : Int → Eff Failure ByteString Int} {items : List (FieldInfo × Datum)} {i : Nat}
  {f : FieldInfo} {d : Datum}

theorem closed (hinit : 8 ∣ init) (hle : init ≤ 32760) (hh : h ≤ init) :
    KeptBy s init h refuse (closeAt init) [] := by
  intro p buf hp hp' hph hsafe
  rw [closeAt_eq hinit hle hp hp']
  rcases hsafe with hag | ⟨hr, hsafe⟩
  · rw [if_pos hag]
    exact kept_refusal (fun _ => by simp) (fun _ _ => rfl)
  · by_cases hag : OffsetAgrees init p
    · rw [if_neg (not_not_intro hag)]
      by_cases hnot : AlignNoticed init 8 p
      · rw [if_pos hnot]
        exact kept_value hr (fun _ _ => rfl)
      · rw [if_neg hnot]
        refine kept_value hr (fun k hk => ?_)
        have hpos := hsafe.resolve_left hnot
        split
        · rw [getElem?_resize _ _ (by omega), if_pos (by omega)]
        · rfl
    · rw [if_pos hag]
      exact kept_refusal (fun _ => by simp) (fun _ _ => rfl)

theorem plain (hh : h ≤ init) (hf : f.Shaped) (hvar : f.isVarlen = false) (hoff : 0 ≤ f.offset)
    (hk : KeptBy s init h refuse k items) :
    KeptBy s init h refuse (runStep s init i f d k) ((f, d) :: items) := by
  intro p buf hp hp' hph hsafe
  rw [runStep]
  rw [HeaderSafe, if_pos hoff] at hsafe
  cases hnull : d.isnull with
  | true =>
      obtain ⟨msg, hrun⟩ := writeField_refuses s init i (toFieldOffset (p - init)) hoff hnull buf
      rw [hrun]
      exact kept_refusal (fun _ => by simp) (fun _ _ => rfl)
  | false =>
      rw [hnull] at hsafe
      obtain ⟨hslot, hrest⟩ := hsafe.resolve_left Bool.false_ne_true
      obtain ⟨hrun, hfit⟩ :=
        writeField_slot (toFieldOffset (p - init)) hf hvar hoff hnull hp hslot
      rw [hrun]
      refine Kept.of_frame (fun k hk => ?_)
        (hk p _ (by rw [length_overwrite hfit, hp]) hp' hph hrest)
      rw [getElem?_overwrite hfit, if_neg (by omega)]

theorem null (hh : h ≤ init) (harr : 0 ≤ s.varlenEndArrayBegin) (hoff : ¬ 0 ≤ f.offset)
    (hnull : d.isnull = true) (hk : KeptBy s init h refuse k items) :
    KeptBy s init h refuse (runStep s init i f d k) ((f, d) :: items) := by
  intro p buf hp hp' hph hsafe
  rw [runStep]
  rw [HeaderSafe, if_neg hoff, hnull, if_pos rfl] at hsafe
  obtain ⟨⟨hbit, hend⟩, hpos, hrest⟩ := hsafe
  obtain ⟨buf', hrun, hlen, hframe⟩ :=
    writeField_null_fits (toFieldOffset (p - init)) (by omega) hnull hp hbit hend
  rw [hrun]
  refine Kept.of_frame (fun k hk => ?_) (hk p buf' hlen hp' hph hrest)
  unfold bitPos at hpos
  exact hframe k (by omega) (by omega)

theorem stored (hinit : 8 ∣ init) (hle : init ≤ 32760) (hh : h ≤ init)
    (harr : 0 ≤ s.varlenEndArrayBegin) (hf : f.Shaped) (hoff : ¬ 0 ≤ f.offset)
    (hnull : d.isnull = false) (hk : KeptBy s init h refuse k items) :
    KeptBy s init h refuse (runStep s init i f d k) ((f, d) :: items) := by
  intro p buf hp hp' hph hsafe
  rw [runStep]
  rw [HeaderSafe, if_neg hoff, hnull, if_neg Bool.false_ne_true] at hsafe
  rw [writeField_value hoff hnull]
  by_cases hnot : AlignNoticed init f.typalign.toNat p
  · rw [if_pos hnot] at hsafe
    rw [writeStored_alignNoticed hf hinit hle hp hp' hnot]
    exact kept_value hsafe (fun _ _ => rfl)
  rw [if_neg hnot] at hsafe
  obtain ⟨hend, hsafe⟩ := hsafe
  obtain ⟨hnegative, hassert, -⟩ := writeStored_ends (d := d) hf hinit hle hp hp' hnot hend
  have hcontinues := writeStored_continues (d := d) hf hinit hle hp hp' (by omega) hnot hend
  have htop := (add_typeAlign_pos hf.align hinit hle (by omega) hp' hnot).2.2
  have hsize := narrowSize_le f d
  generalize alignedPos init f.typalign.toNat p = pos at *
  generalize narrowSize f d = n at *
  by_cases hneg : pos + n < 0
  · rw [if_pos hneg] at hsafe
    rw [hnegative hneg]
    exact kept_value hsafe (header_noteEnd _ hh harr hoff hp hend)
  rw [if_neg hneg] at hsafe
  by_cases hag : OffsetAgrees init p
  · obtain ⟨hn, hpos, hrest⟩ := hsafe.resolve_left (not_not_intro hag)
    obtain ⟨buf', hcont, hlen, hframe⟩ := hcontinues hag hn
    have htop' := htop hag
    rw [hcont]
    refine Kept.of_frame (fun k hk => ?_) (hk (pos + n) buf' hlen (by omega) (by omega) hrest)
    exact hframe k (by omega) (by omega) (by omega)
  · rw [hassert (by omega) hag]
    exact kept_refusal (fun _ => by simp) (header_noteEnd _ hh harr hoff hp hend)

end KeptBy

theorem keptBy_writeFields (hinit : 8 ∣ init) (hle : init ≤ 32760) (hh : h ≤ init)
    (harr : 0 ≤ s.varlenEndArrayBegin) {is : List Nat} (hls : Listed s data is) :
    KeptBy s init h refuse (fun off => writeFields s init data is off >>= closePayload init)
      (storedItems s data is) := by
  induction is with
  | nil => exact KeptBy.closed hinit hle hh
  | cons i is ih =>
      rw [run_cons (hls.data_lt i List.mem_cons_self)]
      have hf := hls.shaped i List.mem_cons_self
      by_cases hoff : 0 ≤ (s.fieldAt i).offset
      · exact (ih hls.tail).plain hh hf (hls.plain i List.mem_cons_self hoff) hoff
      · cases hnull : (data.getD i .null).isnull with
        | true => exact (ih hls.tail).null hh harr hoff hnull
        | false => exact (ih hls.tail).stored hinit hle hh harr hf hoff hnull

end

/-- Two buffers with headers of `h` bytes that differ in bit 7 of the last byte. -/
structure Twins (h : Nat) (b₁ b₂ : ByteString) : Prop where
  length : b₁.length = b₂.length
  same : ∀ k, k + 1 ≠ h → b₁[k]? = b₂[k]?
  left : ∀ k, k + 1 = h → b₁[k]? = some 0
  right : ∀ k, k + 1 = h → b₂[k]? = some 0x80

namespace Twins

variable {h : Nat} {b₁ b₂ : ByteString}

theorem overwrite (ht : Twins h b₁ b₂) {pos : Nat} {bytes : ByteString} (hpos : h ≤ pos)
    (hle : pos + bytes.length ≤ b₁.length) :
    Twins h (Buffer.overwrite b₁ pos bytes) (Buffer.overwrite b₂ pos bytes) := by
  have hle₂ : pos + bytes.length ≤ b₂.length := by
    rw [← ht.length]
    exact hle
  refine ⟨?_, ?_, ?_, ?_⟩
  · rw [length_overwrite hle, length_overwrite hle₂, ht.length]
  · intro k hk
    rw [getElem?_overwrite hle, getElem?_overwrite hle₂, ht.same k hk]
  · intro k hk
    rw [getElem?_overwrite hle, if_neg (by omega), ht.left k hk]
  · intro k hk
    rw [getElem?_overwrite hle₂, if_neg (by omega), ht.right k hk]

theorem resize (ht : Twins h b₁ b₂) {n : Nat} (hn : h ≤ n) :
    Twins h (Buffer.resize b₁ n 0) (Buffer.resize b₂ n 0) := by
  have hlt : ∀ k, k + 1 = h → k < b₁.length := fun k hk =>
    (List.getElem?_eq_some_iff.mp (ht.left k hk)).1
  refine ⟨?_, ?_, ?_, ?_⟩
  · rw [length_resize, length_resize]
  · intro k hk
    rcases Nat.lt_or_ge k n with hkn | hkn
    · rw [getElem?_resize _ _ hkn, getElem?_resize _ _ hkn, ht.length, ht.same k hk]
    · rw [List.getElem?_eq_none (by rw [length_resize]; exact hkn),
        List.getElem?_eq_none (by rw [length_resize]; exact hkn)]
  · intro k hk
    rw [getElem?_resize _ _ (by omega), if_pos (hlt k hk), ht.left k hk]
  · intro k hk
    have hlt₂ := hlt k hk
    rw [ht.length] at hlt₂
    rw [getElem?_resize _ _ (by omega), if_pos hlt₂, ht.right k hk]

theorem noteEnd (ht : Twins h b₁ b₂) {s : Schema} {init : Nat} {f : FieldInfo} {p : Int}
    (hh : h ≤ init) (harr : 0 ≤ s.varlenEndArrayBegin) (hoff : ¬ 0 ≤ f.offset)
    (hp : (b₁.length : Int) = p) (hend : EndFits s init f p) (fin : Int) :
    Twins h (Schema.noteEnd s init f fin b₁) (Schema.noteEnd s init f fin b₂) := by
  unfold Schema.noteEnd
  split
  · rename_i hv
    obtain ⟨hge, hle⟩ := hend hv
    apply ht.overwrite (by omega)
    rw [fieldOffsetBytes, LittleEndian.length_leBytes]
    omega
  · exact ht

theorem not_kept (ht : Twins h b₁ b₂) {refuse : Prop} {out : Except Failure Int × ByteString}
    (hpos : 0 < h) (hk : Kept h refuse b₁ out) (hk' : Kept h refuse b₂ out) : False := by
  have h₁ := hk.header (h - 1) (by omega)
  have h₂ := hk'.header (h - 1) (by omega)
  rw [ht.left (h - 1) (by omega)] at h₁
  rw [ht.right (h - 1) (by omega), h₁] at h₂
  exact absurd (Option.some.inj h₂) (by decide)

theorem overwrite_last (ht : Twins h b₁ b₂) {pos : Nat} (hpos : pos + 1 = h) (b : Byte) :
    Buffer.overwrite b₁ pos [b] = Buffer.overwrite b₂ pos [b] := by
  have h₁ := (List.getElem?_eq_some_iff.mp (ht.left pos hpos)).1
  have h₂ := (List.getElem?_eq_some_iff.mp (ht.right pos hpos)).1
  apply List.ext_getElem?
  intro k
  rw [getElem?_overwrite h₁, getElem?_overwrite h₂]
  by_cases hk : pos ≤ k ∧ k < pos + [b].length
  · rw [if_pos hk, if_pos hk]
  · rw [if_neg hk, if_neg hk]
    apply ht.same
    rw [List.length_singleton] at hk
    omega

end Twins

theorem twins_of_length (h : Nat) :
    Twins h (List.replicate h (0 : Byte)) ((List.replicate h (0 : Byte)).set (h - 1) 0x80) := by
  refine ⟨by simp, ?_, ?_, ?_⟩
  · intro k hk
    rcases Nat.eq_zero_or_pos h with rfl | hpos
    · rfl
    · rw [List.getElem?_set_ne (by omega)]
  · intro k hk
    rw [List.getElem?_replicate, if_pos (by omega)]
  · intro k hk
    have hlast : h - 1 = k := by omega
    rw [hlast, List.getElem?_set_self (by rw [List.length_replicate]; omega)]

section

variable {s : Schema} {init h : Nat} {refuse : Prop} {data : List Datum}

/-- The writer goes back into the header only to its beginning. -/
theorem alignedPos_eq_zero {a : Int} (ha : IsAlignment a) (hinit : 8 ∣ init)
    (hle : init ≤ 32760) {p : Int} (hp : 0 ≤ p) (hp' : p ≤ 65535) (hpi : init ≤ p)
    (hnot : ¬ AlignNoticed init a.toNat p) (hlt : alignedPos init a.toNat p < init) :
    alignedPos init a.toNat p = 0 ∧ 32767 < p - init := by
  have hnonneg := (add_typeAlign_pos ha hinit hle hp hp' hnot).2.1
  have hge := le_alignUp ha.pos p
  have hend := alignUp_le_of_dvd ha.pos (ha.dvd (by decide : (8 : Int) ∣ 65536))
    (show p ≤ 65536 by omega)
  unfold alignedPos at hnonneg hlt ⊢
  by_cases hcase : p - init ≤ 32767
  · rw [if_pos hcase] at hlt
    omega
  · rw [if_neg hcase] at hnonneg ⊢
    omega

/-- Two runs on twins that both keep the header, with `items` before them for which it is not
treated well. -/
structure BrokenTwins (s : Schema) (init h : Nat) (refuse : Prop)
    (k : Int → Eff Failure ByteString Int) (items : List (FieldInfo × Datum)) (p : Int)
    (b₁ b₂ : ByteString) : Prop where
  twins : Twins h b₁ b₂
  length : (b₁.length : Int) = p
  le : p ≤ 65535
  ge : init ≤ p
  broken : ¬ HeaderSafe s init h refuse p items
  left : Kept h refuse b₁ (k (toFieldOffset (p - init)) b₁)
  right : Kept h refuse b₂ (k (toFieldOffset (p - init)) b₂)

namespace BrokenTwins

variable {k : Int → Eff Failure ByteString Int} {items : List (FieldInfo × Datum)} {p : Int}
  {b₁ b₂ : ByteString} {i : Nat} {f : FieldInfo} {d : Datum}

theorem length_right (hb : BrokenTwins s init h refuse k items p b₁ b₂) :
    (b₂.length : Int) = p := by
  rw [← hb.twins.length, hb.length]

/-- They do not come to the end. -/
theorem not_closed (hinit : 8 ∣ init) (hle : init ≤ 32760) (hhead : 0 < init → 0 < h) :
    ¬ BrokenTwins s init h refuse (closeAt init) [] p b₁ b₂ := by
  rintro ⟨ht, hp, hp', hpi, hbroken, hk₁, -⟩
  rw [HeaderSafe, not_or, not_not] at hbroken
  rw [closeAt_eq hinit hle hp hp'] at hk₁
  obtain ⟨hag, hbroken⟩ := hbroken
  rw [if_neg (not_not_intro hag)] at hk₁
  by_cases hr : refuse
  · obtain ⟨e, he⟩ := hk₁.refused hr
    split at he <;> cases he
  · have hbad := fun h => hbroken ⟨hr, h⟩
    rw [if_neg (fun h => hbad (Or.inl h))] at hk₁
    have hpos : alignedPos init 8 p < init := by
      by_contra hge
      exact hbad (Or.inr (by omega))
    obtain ⟨hzero, hwrap⟩ := alignedPos_eq_zero isAlignment_eight hinit hle (by omega) hp'
      hpi (fun h => hbad (Or.inl h)) hpos
    change alignedPos init 8 p = 0 at hzero
    -- the buffer is cut to nothing
    have hcut : 0 > toFieldOffset p := by
      rw [toFieldOffset_eq]
      omega
    rw [hzero, if_pos hcut] at hk₁
    have hfirst := hk₁.header (h - 1) (by omega)
    rw [ht.left (h - 1) (by omega)] at hfirst
    simp [resize] at hfirst

theorem plain (hh : h ≤ init) (hf : f.Shaped) (hvar : f.isVarlen = false) (hoff : 0 ≤ f.offset)
    (hb : BrokenTwins s init h refuse (runStep s init i f d k) ((f, d) :: items) p b₁ b₂) :
    ∃ p' b₁' b₂', BrokenTwins s init h refuse k items p' b₁' b₂' := by
  have hp₂ := hb.length_right
  obtain ⟨ht, hp, hp', hpi, hbroken, hk₁, hk₂⟩ := hb
  rw [runStep] at hk₁ hk₂
  rw [HeaderSafe, if_pos hoff, not_or] at hbroken
  obtain ⟨hnull, hbroken⟩ := hbroken
  rw [Bool.not_eq_true] at hnull
  by_cases hslot : init + f.offset + f.typlen ≤ p
  · have hrest := fun hsafe => hbroken ⟨hslot, hsafe⟩
    obtain ⟨hrun₁, hfit₁⟩ := writeField_slot (toFieldOffset (p - init)) hf hvar hoff hnull hp hslot
    obtain ⟨hrun₂, hfit₂⟩ := writeField_slot (toFieldOffset (p - init)) hf hvar hoff hnull hp₂ hslot
    rw [hrun₁] at hk₁
    rw [hrun₂] at hk₂
    refine ⟨p, _, _, ht.overwrite (by omega) hfit₁, by rw [length_overwrite hfit₁, hp], hp', hpi,
      hrest, hk₁.of_frame fun k hk => ?_, hk₂.of_frame fun k hk => ?_⟩
    · rw [getElem?_overwrite hfit₁, if_neg (by omega)]
    · rw [getElem?_overwrite hfit₂, if_neg (by omega)]
  · rw [writeField_plain_outside hf hvar hoff hnull hp (by omega)] at hk₁
    exact (hk₁.defined _ rfl).elim

theorem null (hh : h ≤ init) (hbitmap : 0 ≤ s.nullBitmapBegin) (harr : 0 ≤ s.varlenEndArrayBegin)
    (hid : -1 ≤ f.nullbitId) (hoff : ¬ 0 ≤ f.offset) (hnull : d.isnull = true)
    (hb : BrokenTwins s init h refuse (runStep s init i f d k) ((f, d) :: items) p b₁ b₂) :
    ∃ p' b₁' b₂', BrokenTwins s init h refuse k items p' b₁' b₂' := by
  have hp₂ := hb.length_right
  obtain ⟨ht, hp, hp', hpi, hbroken, hk₁, hk₂⟩ := hb
  rw [runStep] at hk₁ hk₂
  rw [HeaderSafe, if_neg hoff, hnull, if_pos rfl] at hbroken
  by_cases hfits : BitFits s init f p ∧ EndFits s init f p
  · obtain ⟨c₁, hc₁, hrun₁⟩ := writeField_null_eq (i := i)
      (toFieldOffset (p - init)) (by omega) hnull hp hfits.1 hfits.2
    obtain ⟨c₂, hc₂, hrun₂⟩ := writeField_null_eq (i := i)
      (toFieldOffset (p - init)) (by omega) hnull hp₂ hfits.1 hfits.2
    rw [hrun₁] at hk₁
    rw [hrun₂] at hk₂
    have hfit₁ := (List.getElem?_eq_some_iff.mp hc₁).1
    have hfit₂ := (List.getElem?_eq_some_iff.mp hc₂).1
    by_cases hpos : h ≤ bitPos s init f
    · have hrest := fun hsafe => hbroken ⟨hfits, hpos, hsafe⟩
      have hc : c₁ = c₂ := by
        rw [ht.same _ (by omega), hc₂] at hc₁
        exact (Option.some.inj hc₁).symm
      subst hc
      generalize c₁ ||| BitVec.ofNat 8 (2 ^ (f.nullbitId % 8).toNat) = c at hk₁ hk₂
      have hlen₁ : ((Buffer.overwrite b₁ (bitPos s init f) [c]).length : Int) = p := by
        rw [length_overwrite hfit₁, hp]
      have hlen₂ : ((Buffer.overwrite b₂ (bitPos s init f) [c]).length : Int) = p := by
        rw [length_overwrite hfit₂, hp₂]
      have htwins := (ht.overwrite hpos (show _ + [c].length ≤ _ from hfit₁)).noteEnd
        hh harr hoff hlen₁ hfits.2 (toFieldOffset (p - init))
      have hinside : EndInside s init f (Buffer.overwrite b₁ (bitPos s init f) [c]) := by
        unfold EndInside
        rw [hlen₁]
        exact hfits.2
      refine ⟨p, _, _, htwins, by rw [length_noteEnd _ hinside, hlen₁], hp', hpi, hrest,
        hk₁.of_frame fun k hk => ?_, hk₂.of_frame fun k hk => ?_⟩
      · rw [header_noteEnd _ hh harr hoff hlen₁ hfits.2 k hk, getElem?_overwrite hfit₁,
          if_neg (by omega)]
      · rw [header_noteEnd _ hh harr hoff hlen₂ hfits.2 k hk, getElem?_overwrite hfit₂,
          if_neg (by omega)]
    · -- the bit is the one the twins differ in
      have hlast : f.nullbitId = -1 ∧ bitPos s init f + 1 = h := by
        have hge := hfits.1.1
        unfold bitPos at hpos ⊢
        omega
      obtain ⟨hid', hlast⟩ := hlast
      rw [ht.left _ hlast] at hc₁
      rw [ht.right _ hlast] at hc₂
      cases hc₁
      cases hc₂
      have hbit : (0 : Byte) ||| BitVec.ofNat 8 (2 ^ (f.nullbitId % 8).toNat) =
          0x80 ||| BitVec.ofNat 8 (2 ^ (f.nullbitId % 8).toNat) := by
        rw [hid']
        decide
      rw [hbit, ht.overwrite_last hlast] at hk₁
      exact (ht.not_kept (by omega) hk₁ hk₂).elim
  · obtain ⟨what, buf', hrun⟩ := writeField_null_outside (i := i)
      (toFieldOffset (p - init)) (by omega) hnull hp hfits
    rw [hrun] at hk₁
    exact (hk₁.defined _ rfl).elim

theorem stored (hinit : 8 ∣ init) (hle : init ≤ 32760) (hh : h ≤ init) (hhead : 0 < init → 0 < h)
    (harr : 0 ≤ s.varlenEndArrayBegin) (hf : f.Shaped) (hoff : ¬ 0 ≤ f.offset)
    (hnull : d.isnull = false)
    (hb : BrokenTwins s init h refuse (runStep s init i f d k) ((f, d) :: items) p b₁ b₂) :
    ∃ p' b₁' b₂', BrokenTwins s init h refuse k items p' b₁' b₂' := by
  have hp₂ := hb.length_right
  obtain ⟨ht, hp, hp', hpi, hbroken, hk₁, hk₂⟩ := hb
  rw [runStep] at hk₁ hk₂
  rw [HeaderSafe, if_neg hoff, hnull, if_neg Bool.false_ne_true] at hbroken
  rw [writeField_value hoff hnull] at hk₁ hk₂
  by_cases hnot : AlignNoticed init f.typalign.toNat p
  · rw [if_pos hnot, not_not] at hbroken
    rw [writeStored_alignNoticed hf hinit hle hp hp' hnot] at hk₁
    obtain ⟨e, he⟩ := hk₁.refused hbroken
    cases he
  rw [if_neg hnot] at hbroken
  by_cases hend : EndFits s init f p
  · have hbroken := fun hrest => hbroken ⟨hend, hrest⟩
    rw [writeStored_eq hf hinit hle hp hp' hnot hend] at hk₁
    rw [writeStored_eq hf hinit hle hp₂ hp' hnot hend] at hk₂
    have hback := alignedPos_eq_zero hf.align hinit hle (by omega) hp' hpi hnot
    obtain ⟨-, hnonneg, htop⟩ := add_typeAlign_pos hf.align hinit hle (by omega) hp' hnot
    have hbytes : (storedBytes f d).length = (narrowSize f d).toNat := length_resize _ _ _
    have hsize := narrowSize_le f d
    generalize alignedPos init f.typalign.toNat p = pos at *
    generalize narrowSize f d = n at *
    by_cases hneg : pos + n < 0
    · rw [if_pos hneg] at hbroken hk₁
      obtain ⟨e, he⟩ := hk₁.refused (by_contra hbroken)
      cases he
    rw [if_neg hneg] at hbroken hk₁ hk₂
    have hag : OffsetAgrees init p := by
      by_contra hag
      exact hbroken (Or.inl hag)
    have hbroken := fun hrest => hbroken (Or.inr hrest)
    rw [if_neg (not_not_intro hag)] at hk₁ hk₂
    by_cases hn : n < 0
    · rw [if_pos hn] at hk₁
      exact (hk₁.defined _ rfl).elim
    rw [if_neg hn] at hk₁ hk₂
    by_cases hpos : pos < init
    · -- both runs start again at the beginning of the buffer
      have hzero := (hback hpos).1
      have hnew : (pos + n).toNat = (storedBytes f d).length := by omega
      have hfrom : pos.toNat = 0 := by omega
      rw [hnew, hfrom, overwrite_resize_length] at hk₁ hk₂
      exact (ht.not_kept (hhead (by omega)) hk₁ hk₂).elim
    · have hrest := fun hsafe => hbroken ⟨by omega, by omega, hsafe⟩
      have htwins := ht.noteEnd hh harr hoff hp hend (storedFin f d init p)
      have hfit : pos.toNat + (storedBytes f d).length ≤ (Buffer.resize (Schema.noteEnd s init f
          (storedFin f d init p) b₁) (pos + n).toNat 0).length := by
        rw [length_resize]
        omega
      have htop' := htop hag
      refine ⟨pos + n, _, _, (htwins.resize (by omega)).overwrite (by omega) hfit, ?_, by omega,
        by omega, hrest, hk₁.of_frame fun k hk => ?_, hk₂.of_frame fun k hk => ?_⟩
      · rw [length_overwrite hfit, length_resize]
        omega
      · exact (header_stored _ hh harr hoff hp (by omega) hend (by omega) (by omega) hbytes k
          hk).symm
      · exact (header_stored _ hh harr hoff hp₂ (by omega) hend (by omega) (by omega) hbytes k
          hk).symm
  · rw [writeStored_endOutside hf hinit hle hp hp' hnot hend] at hk₁
    exact (hk₁.defined _ rfl).elim

end BrokenTwins

/-- A run that does not treat the header well changes one of two twins, or is not
defined, or does not refuse what it has to. -/
theorem not_brokenTwins (hinit : 8 ∣ init) (hle : init ≤ 32760) (hh : h ≤ init)
    (hhead : 0 < init → 0 < h) (hbitmap : 0 ≤ s.nullBitmapBegin)
    (harr : 0 ≤ s.varlenEndArrayBegin) {is : List Nat} (hls : Listed s data is) {p : Int}
    {b₁ b₂ : ByteString} :
    ¬ BrokenTwins s init h refuse (fun off => writeFields s init data is off >>= closePayload init)
      (storedItems s data is) p b₁ b₂ := by
  induction is generalizing p b₁ b₂ with
  | nil => exact BrokenTwins.not_closed hinit hle hhead
  | cons i is ih =>
      intro hb
      rw [run_cons (hls.data_lt i List.mem_cons_self)] at hb
      have hnext : ∃ p' b₁' b₂', BrokenTwins s init h refuse
          (fun off' => writeFields s init data is off' >>= closePayload init)
          (storedItems s data is) p' b₁' b₂' := by
        have hf := hls.shaped i List.mem_cons_self
        by_cases hoff : 0 ≤ (s.fieldAt i).offset
        · exact hb.plain hh hf (hls.plain i List.mem_cons_self hoff) hoff
        · cases hnull : (data.getD i .null).isnull with
          | true => exact hb.null hh hbitmap harr (hls.nullbit i List.mem_cons_self) hoff hnull
          | false => exact hb.stored hinit hle hh hhead harr hf hoff hnull
      obtain ⟨p', b₁', b₂', hb'⟩ := hnext
      exact ih hls.tail hb'

/-- Where the buffer ends in front of the payload, the first iteration is not defined or
leaves the buffer as it is. -/
theorem run_short (h : Nat) (refuse : Prop) (hinit : 8 ∣ init) (hle : init ≤ 32760)
    (harr : 0 ≤ s.varlenEndArrayBegin) {i : Nat} {is : List Nat}
    (hls : Listed s data (i :: is))
    (hkind : 0 ≤ (s.fieldAt i).offset ∨ (s.fieldAt i).isVarlen = true) {p : Int}
    {buf : ByteString} (hp : (buf.length : Int) = p) (hshort : p < init) :
    ∃ r buf', (writeFields s init data (i :: is) (toFieldOffset (p - init)) >>=
        closePayload init) buf = (r, buf') ∧
      ((∃ what, r = .error (.undefined what)) ∨ (buf' = buf ∧
        ((refuse → ∃ e, r = .error e) →
          HeaderSafe s init h refuse p (storedItems s data (i :: is))))) := by
  have hf := hls.shaped i List.mem_cons_self
  have hvar := hls.plain i List.mem_cons_self
  rw [run_apply (hls.data_lt i List.mem_cons_self), runStep]
  change ∃ r buf', _ = (r, buf') ∧ (_ ∨ (_ ∧
    (_ → HeaderSafe s init h refuse p ((s.fieldAt i, data.getD i .null) :: _))))
  generalize s.fieldAt i = f at hf hvar hkind ⊢
  generalize data.getD i .null = d
  rw [HeaderSafe]
  by_cases hoff : 0 ≤ f.offset
  · rw [if_pos hoff]
    cases hnull : d.isnull with
    | true =>
        obtain ⟨msg, hrun⟩ :=
          writeField_refuses s init i (toFieldOffset (p - init)) hoff hnull buf
        rw [hrun]
        exact ⟨_, _, rfl, Or.inr ⟨rfl, fun _ => Or.inl rfl⟩⟩
    | false =>
        have hlen := (hf.typlen (hvar hoff)).1
        rw [writeField_plain_outside hf (hvar hoff) hoff hnull hp (by omega)]
        exact ⟨_, _, rfl, Or.inl ⟨_, rfl⟩⟩
  · have hend : ¬ EndFits s init f p := fun hend => by
      have := (hend (hkind.resolve_left hoff)).2
      omega
    rw [if_neg hoff]
    cases hnull : d.isnull with
    | true =>
        obtain ⟨what, buf', hrun⟩ := writeField_null_outside (s := s) (i := i)
          (toFieldOffset (p - init)) (by omega) hnull hp (fun h => hend h.2)
        rw [hrun]
        exact ⟨_, _, rfl, Or.inl ⟨_, rfl⟩⟩
    | false =>
        rw [if_neg Bool.false_ne_true, writeField_value hoff hnull]
        by_cases hnot : AlignNoticed init f.typalign.toNat p
        · rw [if_pos hnot, writeStored_alignNoticed hf hinit hle hp (by omega) hnot]
          refine ⟨_, _, rfl, Or.inr ⟨rfl, fun hrefuse hr => ?_⟩⟩
          obtain ⟨e, he⟩ := hrefuse hr
          cases he
        · rw [writeStored_endOutside hf hinit hle hp (by omega) hnot hend]
          exact ⟨_, _, rfl, Or.inl ⟨_, rfl⟩⟩

/-- Where nothing is written, the header is kept unless there is something to refuse. -/
theorem kept_iff_of_minusOne {w : ByteString → Except Failure Int × ByteString}
    (hw : ∀ header : ByteString, header.length = h → w header = (.ok (-1), header)) :
    (∀ header : ByteString, header.length = h → Kept h refuse header (w header)) ↔ ¬ refuse := by
  constructor
  · intro hall hr
    have hl : (List.replicate h (0 : Byte)).length = h := List.length_replicate
    have hk := hall _ hl
    rw [hw _ hl] at hk
    obtain ⟨e, he⟩ := hk.refused hr
    cases he
  · intro hr header hl
    rw [hw header hl]
    exact kept_value hr (fun _ _ => rfl)

theorem length_resized {p : Int} (hp : 0 ≤ p) (header : ByteString) :
    ((resize header p.toNat (0 : Byte)).length : Int) = p := by
  rw [length_resize]
  omega

theorem header_resized {p : Int} (hph : h ≤ p) {header : ByteString} (hl : header.length = h) :
    ∀ k < h, (resize header p.toNat 0)[k]? = header[k]? := by
  intro k hk
  rw [getElem?_resize _ _ (by omega), if_pos (by omega)]

/-- The run that is given a header keeps it, whatever its bytes are, exactly if the buffer
has room for it and it is treated well. -/
theorem kept_iff_headerSafe (hinit : 8 ∣ init) (hle : init ≤ 32760) (hh : h ≤ init)
    (hhead : 0 < init → 0 < h) (hbitmap : 0 ≤ s.nullBitmapBegin)
    (harr : 0 ≤ s.varlenEndArrayBegin) {is : List Nat} (hls : Listed s data is) {p : Int}
    (hp : 0 ≤ p) (hp' : p ≤ 65535)
    (hkind : p < init → ∃ i is', is = i :: is' ∧
      (0 ≤ (s.fieldAt i).offset ∨ (s.fieldAt i).isVarlen = true)) :
    (∀ header : ByteString, header.length = h → Kept h refuse header
        ((writeFields s init data is (toFieldOffset (p - init)) >>= closePayload init)
          (resize header p.toNat 0))) ↔
      h ≤ p ∧ HeaderSafe s init h refuse p (storedItems s data is) := by
  have htwins := twins_of_length h
  have hl₁ : (List.replicate h (0 : Byte)).length = h := List.length_replicate
  have hl₂ : ((List.replicate h (0 : Byte)).set (h - 1) 0x80).length = h := by simp
  constructor
  · intro hall
    have hk₁ := hall _ hl₁
    have hk₂ := hall _ hl₂
    rcases Int.lt_or_le p init with hshort | hlong
    · obtain ⟨i, is, rfl, hfirst⟩ := hkind hshort
      obtain ⟨r, buf', heq, ⟨what, rfl⟩ | ⟨rfl, hsafe⟩⟩ := run_short h refuse hinit hle harr hls
        hfirst (length_resized hp (List.replicate h 0)) hshort
      · rw [heq] at hk₁
        exact (hk₁.defined what rfl).elim
      rw [heq] at hk₁
      refine ⟨?_, hsafe hk₁.refused⟩
      by_contra hcut
      -- the header is cut and what is left of it does not grow again
      have hlast := hk₁.header (h - 1) (by omega)
      rw [htwins.left (h - 1) (by omega), List.getElem?_eq_none (by rw [length_resize]; omega)]
        at hlast
      cases hlast
    · have hph : (h : Int) ≤ p := by omega
      refine ⟨hph, ?_⟩
      by_contra hbroken
      exact not_brokenTwins hinit hle hh hhead hbitmap harr hls
        ⟨htwins.resize (by omega), length_resized hp _, hp', hlong, hbroken,
          hk₁.of_frame fun k hk => (header_resized hph hl₁ k hk).symm,
          hk₂.of_frame fun k hk => (header_resized hph hl₂ k hk).symm⟩
  · rintro ⟨hph, hsafe⟩ header hl
    exact (keptBy_writeFields hinit hle hh harr hls p _ (length_resized hp header) hp' hph
      hsafe).of_frame (header_resized hph hl)

end

section Header

variable {s : Schema} {l : List FieldInfo} {data : List Datum}

theorem listed_order (ha : Arranged s l) (hs : Sectioned s l)
    (hbit : ∀ f ∈ l, -1 ≤ f.nullbitId) (hlen : data.length = l.length) :
    Listed s data (order l) := by
  have hlt : ∀ i ∈ order l, i < l.length := by
    intro i hi
    rw [order_eq] at hi
    rcases List.mem_append.mp hi with h | h
    · exact (List.getElem?_eq_some_iff.mp (mem_indices.mp h).choose_spec.1).1
    · exact lt_of_mem_storedOrder h
  have hfield : ∀ i ∈ order l, ∃ f, l[i]? = some f ∧ s.fieldAt i = f := fun i hi =>
    have hf := List.getElem?_eq_getElem (hlt i hi)
    ⟨_, hf, fieldAt_eq ha hf⟩
  refine ⟨?_, ?_, ?_, ?_⟩
  · intro i hi
    obtain ⟨f, hf, hat⟩ := hfield i hi
    rw [hat]
    exact hs.shaped f (List.mem_of_getElem? hf)
  · intro i hi hoff
    obtain ⟨f, hf, hat⟩ := hfield i hi
    rw [hat] at hoff ⊢
    by_contra hv
    have := ha.offset_varlen i f hf (by simpa using hv)
    omega
  · intro i hi
    obtain ⟨f, hf, hat⟩ := hfield i hi
    rw [hat]
    exact hbit f (List.mem_of_getElem? hf)
  · intro i hi
    rw [hlen]
    exact hlt i hi

/-- A payload that begins in front of the end array comes from variable-length
fields. -/
theorem order_of_payload_neg (ha : Arranged s l) (hs : Sectioned s l)
    (hneg : s.varlenPayloadBegin < 0) :
    ∃ i is, order l = i :: is ∧
      (0 ≤ (s.fieldAt i).offset ∨ (s.fieldAt i).isVarlen = true) := by
  have hpay := hs.payload_eq
  have hcount : l.countP FieldInfo.isVarlen ≠ 0 := by
    intro hzero
    have h₁ := hs.bitmap_nonneg
    have h₂ := hs.bitmap_le
    have h₃ := hs.endArray_le
    rw [hzero, addWithCheck_eq (by omega) h₃ (by decide) (by decide)] at hpay
    split at hpay
    · have := Option.some.inj hpay
      omega
    · cases hpay
  rw [order_eq, storedOrder]
  rcases hplain : indices FieldInfo.isPlain l with _ | ⟨i, is⟩
  · rcases hvar : indices FieldInfo.isVarlen l with _ | ⟨i, is⟩
    · rw [← length_indices, hvar] at hcount
      exact absurd rfl hcount
    · obtain ⟨f, hf, hv⟩ := mem_indices.mp (hvar ▸ List.mem_cons_self : i ∈ indices _ l)
      refine ⟨i, _, rfl, Or.inr ?_⟩
      rw [fieldAt_eq ha hf]
      exact hv
  · obtain ⟨f, hf, hp⟩ := mem_indices.mp (hplain ▸ List.mem_cons_self : i ∈ indices _ l)
    refine ⟨i, _, rfl, Or.inl ?_⟩
    rw [fieldAt_eq ha hf]
    exact ha.offset_plain i f hf hp

/-- A NULL for a field that is not nullable is an error, and the bytes that were in the
buffer are still there however the call ends. -/
def NullsRefused (s : Schema) (data : List Datum) (buf : ByteString) : Prop :=
  ∃ r buf', writePayloadToBuffer s data buf = (r, buf') ∧ (∀ what, r ≠ .error (.undefined what)) ∧
    buf'.take buf.length = buf ∧ (NullMisplaced s data → ∃ e, r = .error e)

def HeaderRespected (s : Schema) (data : List Datum) (h : Nat) : Prop :=
  if 32760 < h ∨ (alignUp 8 h).toNat + s.varlenPayloadBegin < 0 then ¬ NullMisplaced s data
  else h ≤ (alignUp 8 h).toNat + s.varlenPayloadBegin ∧
    HeaderSafe s (alignUp 8 h).toNat h (NullMisplaced s data)
      ((alignUp 8 h).toNat + s.varlenPayloadBegin) (storedItems s data s.fieldReorderIdx)

theorem nullsRefused_iff_kept {buf : ByteString} :
    NullsRefused s data buf ↔
      Kept buf.length (NullMisplaced s data) buf (writePayloadToBuffer s data buf) := by
  have htake : ∀ buf' : ByteString,
      buf'.take buf.length = buf ↔ ∀ k < buf.length, buf'[k]? = buf[k]? := by
    intro buf'
    constructor
    · intro h k hk
      rw [← List.getElem?_take_of_lt hk, h]
    · intro h
      apply List.ext_getElem?
      intro k
      rcases Nat.lt_or_ge k buf.length with hk | hk
      · rw [List.getElem?_take_of_lt hk, h k hk]
      · rw [List.getElem?_eq_none hk, List.getElem?_eq_none]
        exact (List.length_take_le _ _).trans hk
  constructor
  · rintro ⟨r, buf', heq, hdef, hkeep, hrefuse⟩
    rw [heq]
    exact ⟨hdef, (htake buf').mp hkeep, hrefuse⟩
  · intro hk
    exact ⟨_, _, rfl, hk.defined, (htake _).mpr hk.header, hk.refused⟩

/-- The header is respected exactly if every header of that length is kept and every
misplaced NULL refused. -/
theorem kept_iff_headerRespected (ha : Arranged s l) (hs : Sectioned s l)
    (hbit : ∀ f ∈ l, -1 ≤ f.nullbitId) (hlen : data.length = l.length) (h : Nat) :
    (∀ header : ByteString, header.length = h →
        Kept h (NullMisplaced s data) header (writePayloadToBuffer s data header)) ↔
      HeaderRespected s data h := by
  unfold HeaderRespected
  by_cases hheader : 32760 < h
  · rw [if_pos (Or.inl hheader)]
    exact kept_iff_of_minusOne fun header hl => writePayloadToBuffer_header (by omega)
  obtain ⟨hmax, hinit, hdvd, hcast⟩ := maxAlign_header (show h ≤ 32760 by omega)
  have hrange := addWithCheck_range hs.payload_eq
  have hup := le_alignUp (a := 8) (by decide) (h : Int)
  have hhead : 0 < (alignUp 8 (h : Int)).toNat → 0 < h := by
    intro hpos
    simp only [alignUp] at hpos
    omega
  have hwrite : ∀ header : ByteString, header.length = h →
      writePayloadToBuffer s data header =
        if (alignUp 8 (h : Int)).toNat + s.varlenPayloadBegin < 0 then (.ok (-1), header)
        else (writeFields s (alignUp 8 (h : Int)).toNat data s.fieldReorderIdx
            s.varlenPayloadBegin >>= closePayload (alignUp 8 (h : Int)).toNat)
          (resize header ((alignUp 8 (h : Int)).toNat + s.varlenPayloadBegin).toNat 0) :=
    fun header hl => writePayloadToBuffer_eq (by omega) (by rw [hl, hmax])
  generalize (alignUp 8 (h : Int)).toNat = init at hinit hdvd hcast hhead hwrite ⊢
  by_cases hneg : init + s.varlenPayloadBegin < 0
  · rw [if_pos (Or.inr hneg)]
    exact kept_iff_of_minusOne fun header hl => by rw [hwrite header hl, if_pos hneg]
  rw [if_neg (not_or.mpr ⟨hheader, hneg⟩), ha.reorder]
  have harr : 0 ≤ s.varlenEndArrayBegin := by
    have h₁ := hs.bitmap_nonneg
    have h₂ := hs.bitmap_le
    omega
  have hoff : toFieldOffset (init + s.varlenPayloadBegin - init) = s.varlenPayloadBegin := by
    rw [add_sub_cancel_left, toFieldOffset_of_mem hrange.1 hrange.2]
  have hrun : ∀ header : ByteString, header.length = h → writePayloadToBuffer s data header =
      (writeFields s init data (order l)
        (toFieldOffset (init + s.varlenPayloadBegin - init)) >>= closePayload init)
        (resize header (init + s.varlenPayloadBegin).toNat 0) := fun header hl => by
    rw [hwrite header hl, if_neg hneg, hoff, ha.reorder]
  rw [← kept_iff_headerSafe hdvd hinit (by omega) hhead hs.bitmap_nonneg harr
    (listed_order ha hs hbit hlen) (by omega) (by omega)
    fun hlt => order_of_payload_neg ha hs (by omega)]
  exact forall₂_congr fun header hl => by rw [hrun header hl]

end Header

section

variable {typid typparam : List Nat} {nullable : List Bool}

theorem nullbitId_of_mem_initFields {f : FieldInfo} (h : f ∈ initFields typid typparam nullable) :
    f.nullbitId = 0 ∨ f.nullbitId = -1 := by
  fun_induction initFields typid typparam nullable with
  | case1 oid typid p typparam b nullable ih =>
      rcases List.mem_cons.mp h with rfl | h
      · cases b
        · exact Or.inr rfl
        · exact Or.inl rfl
      · exact ih h
  | case2 => cases h

theorem mem_initFields_of_create {names : List ByteString} {s₀ : Schema}
    (h : create typid typparam nullable names = some s₀) {f : FieldInfo} (hf : f ∈ s₀.fields) :
    f ∈ initFields typid typparam nullable := by
  have hlen := length_field_of_create h
  obtain ⟨hparam, hnull, rfl⟩ := create_eq_some h
  have hle : (toFieldOffset typid.length).toNat ≤ typid.length := by
    rw [toFieldOffset_eq]
    omega
  rw [fields, getNumFields, hlen] at hf
  simp only [construct] at hf
  rw [List.take_left' (by rw [List.length_take, length_initFields hparam hnull]; omega)] at hf
  exact List.mem_of_mem_take hf

end

/-- The id of a field that is not nullable stays `-1`. -/
theorem Computed.nullbit {σ : Type} {findType : Nat → Eff Failure σ (Option SysTableType)}
    {builtin : BuiltinTable} {s : Schema}
    (hshape : ∀ oid typ, Found findType oid typ → typ.Shaped builtin)
    (hcomp : Computed findType builtin s) : ∀ f ∈ s.fields, -1 ≤ f.nullbitId := by
  obtain ⟨typid, typparam, nullable, names, s₀, st, st', hcreate, hlayout, hdone⟩ := hcomp
  obtain ⟨l, ha, -, hall, -, -⟩ := arranged_of_computeLayoutImpl
    (lengthsMarked_of_shaped hshape) (create_not_computed hcreate) hlayout hdone
  rw [ha.fields_eq]
  intro f hf
  cases hnull : f.isNullable with
  | true =>
      have : 0 ≤ f.nullbitId := by simpa [FieldInfo.isNullable] using hnull
      omega
  | false =>
      obtain ⟨i, hi, hget⟩ := List.mem_iff_getElem.mp hf
      have hres := hall.get (by rw [hall.length_eq]; exact hi) hi
      have hg := List.get_mem s₀.fields ⟨i, by rw [hall.length_eq]; exact hi⟩
      rw [List.get_eq_getElem, List.get_eq_getElem, hget] at hres
      have := nullbitId_of_mem_initFields (mem_initFields_of_create hcreate hg)
      rw [List.get_eq_getElem] at this
      rw [hres.nullbit hnull]
      omega

/-- NULLs are refused and every header of `h` bytes is kept exactly when the writer
treats headers of that length well. -/
theorem nullsRefused_iff {σ : Type} {findType : Nat → Eff Failure σ (Option SysTableType)}
    {builtin : BuiltinTable} {s : Schema} {data : List Datum}
    (hshape : ∀ oid typ, Found findType oid typ → typ.Shaped builtin)
    (hcomp : Computed findType builtin s) (hlen : (data.length : Int) = s.getNumFields)
    (h : Nat) :
    (∀ header : ByteString, header.length = h → NullsRefused s data header) ↔
      HeaderRespected s data h := by
  obtain ⟨l, ha, hs⟩ := hcomp.layout hshape
  have hbit := hcomp.nullbit hshape
  rw [ha.fields_eq] at hbit
  have hl : data.length = l.length := by
    rw [← ha.fields_eq, length_fields ha.numFields_nonneg]
    omega
  rw [← kept_iff_headerRespected ha hs hbit hl]
  apply forall₂_congr
  intro header hheader
  rw [nullsRefused_iff_kept, hheader]

/-- The condition at `(7, 'ab', NULL, 9, '')` behind three bytes. -/
theorem nullsRefused_iff_sample :
    (∀ header : ByteString, header.length = 3 → NullsRefused sampleSchema sampleData header) ↔
      HeaderRespected sampleSchema sampleData 3 :=
  nullsRefused_iff documentedBuiltins_shaped sampleSchema_computed sampleData_nullsAllowed.1 3

/-- A NULL for `VARCHAR(20) NOT NULL` is not refused, and it changes the last byte of a
header of eight bytes. -/
theorem textSchema_not_nullsRefused :
    Computed findTypeInRows documentedBuiltins textSchema ∧
      NullMisplaced textSchema [.null] ∧
      (∃ n buf', writePayloadToBuffer textSchema [.null] [1, 2, 3, 4, 5, 6, 7, 8] =
          (.ok n, buf') ∧ buf'.take 8 ≠ [1, 2, 3, 4, 5, 6, 7, 8]) ∧
      ¬ NullsRefused textSchema [.null] [1, 2, 3, 4, 5, 6, 7, 8] := by
  have hmis : NullMisplaced textSchema [.null] :=
    ⟨0, ⟨111, -1, 1, true, 20, -1, -1⟩, .null, rfl, rfl, rfl, rfl⟩
  have hrun : writePayloadToBuffer textSchema [.null] [1, 2, 3, 4, 5, 6, 7, 8] =
      (.ok 8, [1, 2, 3, 4, 5, 6, 7, 0x88, 2, 0, 0, 0, 0, 0, 0, 0]) := by decide +kernel
  refine ⟨textSchema_computed, hmis, ⟨_, _, hrun, by decide⟩, ?_⟩
  rintro ⟨r, buf', heq, -, -, hrefuse⟩
  obtain ⟨e, he⟩ := hrefuse hmis
  rw [hrun] at heq
  have := (Prod.mk.inj heq).1
  rw [he] at this
  cases this

end Schema

end Taco
