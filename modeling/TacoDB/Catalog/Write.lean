import TacoDB.Data.Bitmap
import TacoDB.Catalog.ExactLayout
import TacoDB.Catalog.Payload

/-!
# Writing a payload that fits

What `WritePayloadToBufferImpl` leaves in the buffer when the payload fits in
exact arithmetic. `Written m buf` is the invariant of its loop after `m` of the
fields without a fixed offset: the buffer ends where the `m`-th field ends, the
null bits of the NULL fields among them are set, the ends of the
variable-length fields among them are in the end array, and the bytes of the
non-NULL ones lie where exact arithmetic puts them.

The loop writes into three disjoint parts of the buffer and appends to it, so
each part of the invariant only has to follow the writes to its own bytes.
-/

namespace Taco

open Rank Alignment Buffer Bitmap LittleEndian

namespace Schema

def image (f : FieldInfo) (d : Datum) : ByteString :=
  resize (if f.typbyref then d.getVarlenBytes else d.getFixedlenBytes) (storedSize f d) 0

@[simp] theorem length_image (f : FieldInfo) (d : Datum) :
    (image f d).length = storedSize f d :=
  length_resize _ _ _

theorem copyBytes_shaped {f : FieldInfo} (hf : f.Shaped) (d : Datum) (src : ByteString) :
    copyBytes f.typbyref (storedSize f d : Nat) src =
      .ok (resize src (storedSize f d) 0) := by
  unfold copyBytes
  cases hbyref : f.typbyref with
  | true =>
      rw [if_pos rfl, if_neg (by omega), Int.toNat_natCast]
  | false =>
      have hvar : f.isVarlen = false := by
        cases hv : f.isVarlen
        · rfl
        · rw [hf.byref hv] at hbyref
          cases hbyref
      rw [if_neg Bool.false_ne_true]
      have hsize : storedSize f d = f.typlen.toNat := by
        rw [storedSize, hvar, if_neg Bool.false_ne_true]
      rcases hf.byval hbyref with h | h | h | h <;> rw [hsize, h] <;> rfl

theorem store_of_le {buf bytes : ByteString} {pos : Int} (h : 0 ≤ pos)
    (hle : pos + bytes.length ≤ buf.length) :
    store pos bytes buf = (.ok (), overwrite buf pos.toNat bytes) := by
  unfold store
  rw [if_pos ⟨h, hle⟩]

theorem resizeBuf_apply (n : Int) (buf : ByteString) :
    resizeBuf n buf = (.ok (), resize buf n.toNat 0) := rfl

theorem writeField_plain {s : Schema} {init i : Nat} {f : FieldInfo} {d : Datum}
    {off : Int} {buf : ByteString} (hf : f.Shaped) (hvar : f.isVarlen = false)
    (hoff : 0 ≤ f.offset) (hnull : d.isnull = false)
    (hle : init + f.offset + storedSize f d ≤ buf.length) :
    writeField s init i f d off buf =
      (.ok (some off), overwrite buf (init + f.offset).toNat (image f d)) := by
  have hsize : (storedSize f d : Int) = f.typlen := by
    have := (hf.typlen hvar).1
    rw [storedSize, hvar, if_neg Bool.false_ne_true]
    omega
  have hcopy := copyBytes_shaped hf d
    (if f.typbyref then d.getVarlenBytes else d.getFixedlenBytes)
  rw [hsize] at hcopy
  unfold writeField
  simp only [hnull, if_pos hoff, Bool.false_eq_true, if_false]
  rw [hcopy]
  rw [Eff.bind_of_ok (Eff.ofExcept_apply _ _), Eff.bind_of_ok (store_of_le (by omega) ?_)]
  · rfl
  · rw [length_resize]
    exact hle

theorem setNullBit_of_lt {buf : ByteString} {pos id : Nat} {b : Byte}
    (hb : buf[pos + id / 8]? = some b) :
    setNullBit pos id buf =
      (.ok (), overwrite buf (pos + id / 8) [b ||| BitVec.ofNat 8 (2 ^ (id % 8))]) := by
  obtain ⟨hlt, hget⟩ := List.getElem?_eq_some_iff.mp hb
  have hload : Datum.load buf (pos + id / 8 : Nat) 1 = .ok [b] := by
    rw [Datum.load_of_le hlt, slice, List.drop_eq_getElem_cons hlt, hget]
    rfl
  have hpos : (pos : Int) + (id : Int) / 8 = (pos + id / 8 : Nat) := by omega
  have hmod : ((id : Int) % 8).toNat = id % 8 := by omega
  unfold setNullBit
  rw [Eff.bind_of_ok (Eff.getState_apply _), hpos, hload,
    Eff.bind_of_ok (Eff.ofExcept_apply _ _), hmod, store_of_le (by omega)
      (by rw [List.length_map, List.length_singleton]; omega)]
  rfl

def noteEnd (s : Schema) (init : Nat) (f : FieldInfo) (fin : Int) (buf : ByteString) :
    ByteString :=
  if f.isVarlen then
    overwrite buf (init + s.varlenEndArrayBegin + 2 * (-f.offset - 1)).toNat
      (fieldOffsetBytes fin)
  else buf

def EndInside (s : Schema) (init : Nat) (f : FieldInfo) (buf : ByteString) : Prop :=
  f.isVarlen = true → 0 ≤ init + s.varlenEndArrayBegin + 2 * (-f.offset - 1) ∧
    init + s.varlenEndArrayBegin + 2 * (-f.offset - 1) + 2 ≤ buf.length

theorem setVarlenEnd_of_inside {s : Schema} {init : Nat} {f : FieldInfo} {fin : Int}
    {buf : ByteString} (h : EndInside s init f buf) :
    setVarlenEnd s init f fin buf = (.ok (), noteEnd s init f fin buf) := by
  unfold setVarlenEnd noteEnd
  by_cases hvar : f.typlen = -1
  · have hv : f.isVarlen = true := by simp [FieldInfo.isVarlen, hvar]
    obtain ⟨hpos, hle⟩ := h hv
    rw [if_pos hvar, hv, if_pos rfl, store_of_le hpos]
    rw [fieldOffsetBytes, length_leBytes]
    exact hle
  · have hv : f.isVarlen = false := by simp [FieldInfo.isVarlen, hvar]
    rw [if_neg hvar, hv, if_neg Bool.false_ne_true]
    rfl

theorem length_noteEnd {s : Schema} {init : Nat} {f : FieldInfo} (fin : Int)
    {buf : ByteString} (h : EndInside s init f buf) :
    (noteEnd s init f fin buf).length = buf.length := by
  unfold noteEnd
  split
  · rename_i hv
    obtain ⟨hpos, hle⟩ := h hv
    apply length_overwrite
    rw [fieldOffsetBytes, length_leBytes]
    omega
  · rfl

theorem getElem?_noteEnd {s : Schema} {init : Nat} {f : FieldInfo} {fin : Int}
    {buf : ByteString} (h : EndInside s init f buf) {pos : Nat}
    (hpos : f.isVarlen = true → pos < init + s.varlenEndArrayBegin + 2 * (-f.offset - 1) ∨
      init + s.varlenEndArrayBegin + 2 * (-f.offset - 1) + 2 ≤ pos) :
    (noteEnd s init f fin buf)[pos]? = buf[pos]? := by
  unfold noteEnd
  split
  · rename_i hv
    have hout := hpos hv
    obtain ⟨hge, hle⟩ := h hv
    have hlen : (fieldOffsetBytes fin).length = 2 := length_leBytes 2 _
    rw [getElem?_overwrite (by omega), if_neg (by omega)]
  · rfl

theorem slice_noteEnd {s : Schema} {init : Nat} {f : FieldInfo} {fin : Int}
    {buf : ByteString} (h : EndInside s init f buf) (hv : f.isVarlen = true) :
    slice (noteEnd s init f fin buf)
      (init + s.varlenEndArrayBegin + 2 * (-f.offset - 1)).toNat 2 = fieldOffsetBytes fin := by
  obtain ⟨hge, hle⟩ := h hv
  have hlen : (fieldOffsetBytes fin).length = 2 := length_leBytes 2 _
  rw [noteEnd, if_pos hv]
  have hself := slice_overwrite_self (l := buf) (fieldOffsetBytes fin)
    (i := (init + s.varlenEndArrayBegin + 2 * (-f.offset - 1)).toNat) (by omega)
  rwa [hlen] at hself

/-- A NULL in a nullable field sets its bit, and a variable-length field ends
where it begins. -/
theorem writeField_null {s : Schema} {init bitmap id i : Nat} {f : FieldInfo} {d : Datum}
    {off : Int} {buf : ByteString} {b : Byte} (hoff : f.offset < 0) (hnull : d.isnull = true)
    (hbitmap : s.nullBitmapBegin = bitmap) (hid : f.nullbitId = id)
    (hb : buf[init + bitmap + id / 8]? = some b) (hend : EndInside s init f buf) :
    writeField s init i f d off buf =
      (.ok (some off), noteEnd s init f off (overwrite buf (init + bitmap + id / 8)
        [b ||| BitVec.ofNat 8 (2 ^ (id % 8))])) := by
  have hlt : init + bitmap + id / 8 < buf.length := (List.getElem?_eq_some_iff.mp hb).1
  have hset := setNullBit_of_lt hb
  rw [Int.natCast_add] at hset
  unfold writeField
  rw [if_neg (by omega), hnull, if_pos rfl, hbitmap, hid, Eff.bind_of_ok hset,
    Eff.bind_of_ok (setVarlenEnd_of_inside ?_)]
  · rfl
  · unfold EndInside
    rw [length_overwrite hlt]
    exact hend

theorem typeAlign_of_le {a off : Int} (ha : IsAlignment a) (hoff : 0 ≤ off)
    (h : alignUp a.toNat off ≤ 32767) : typeAlign a off = alignUp a.toNat off := by
  have hle := le_alignUp ha.pos off
  rw [typeAlign_eq ha]
  exact toFieldOffset_of_mem (by omega) h

/-- The length the writer uses for a datum is the number of bytes it takes, if
that number is a `FieldOffset`. -/
theorem fieldLen_eq {f : FieldInfo} (hf : f.Shaped) {d : Datum}
    (hsize : storedSize f d ≤ 32767) :
    (if f.typlen = -1 then toFieldOffset d.getVarlenSize else f.typlen) = storedSize f d := by
  by_cases hvar : f.typlen = -1
  · have heq : storedSize f d = d.getVarlenSize := by
      simp [storedSize, FieldInfo.isVarlen, hvar]
    rw [if_pos hvar, toFieldOffset_of_mem (by omega) (by omega), heq]
  · have hv : f.isVarlen = false := by simp [FieldInfo.isVarlen, hvar]
    have := (hf.typlen hv).1
    rw [if_neg hvar, storedSize, hv, if_neg Bool.false_ne_true]
    omega

theorem fieldBytes_eq {f : FieldInfo} (hf : f.Shaped) (d : Datum) :
    (if f.typlen = -1 ∨ f.typbyref = true then d.getVarlenBytes else d.getFixedlenBytes) =
      if f.typbyref then d.getVarlenBytes else d.getFixedlenBytes := by
  by_cases hvar : f.typlen = -1
  · have hbyref := hf.byref (by simp [FieldInfo.isVarlen, hvar])
    simp [hbyref]
  · simp [hvar]

/-- A non-NULL field without a fixed offset is appended at the next aligned
position, as long as the buffer stays in the range of a `FieldOffset`. -/
theorem writeStored_fits {s : Schema} {init : Nat} {f : FieldInfo} {d : Datum}
    {off : Int} {buf : ByteString} (hf : f.Shaped) (hoff : 0 ≤ off)
    (hbuf : (buf.length : Int) = init + off)
    (hfit : init + (alignUp f.typalign.toNat off + storedSize f d) ≤ 32767)
    (hend : EndInside s init f buf) :
    writeStored s init f d off buf =
      (.ok (some (alignUp f.typalign.toNat off + storedSize f d)),
        noteEnd s init f (alignUp f.typalign.toNat off + storedSize f d) buf ++
          List.replicate (alignUp f.typalign.toNat off - off).toNat 0 ++ image f d) := by
  set newoff := alignUp f.typalign.toNat off with hnewoff
  have hge : off ≤ newoff := le_alignUp hf.align.pos off
  have halign : typeAlign f.typalign off = newoff := typeAlign_of_le hf.align hoff (by omega)
  have hnotelen := length_noteEnd (newoff + storedSize f d) hend
  have hassert : decide (off + init = toFieldOffset
      (noteEnd s init f (newoff + storedSize f d) buf).length) = true := by
    rw [hnotelen, hbuf, toFieldOffset_of_mem (by omega) (by omega)]
    simp [add_comm]
  have hpos : (newoff + storedSize f d + init : Int).toNat =
      (init + newoff).toNat + (image f d).length := by
    rw [length_image]
    omega
  have hpad : (init + newoff).toNat - buf.length = (newoff - off).toNat := by omega
  unfold writeStored
  simp only [halign, fieldLen_eq hf (by omega : storedSize f d ≤ 32767), fieldBytes_eq hf d]
  rw [if_neg (by omega), Eff.bind_of_ok (setVarlenEnd_of_inside hend), if_neg (by omega),
    Eff.bind_of_ok (Eff.getState_apply _), hassert, assert, if_pos rfl,
    Eff.bind_of_ok (Eff.pure_apply _ _), Eff.bind_of_ok (resizeBuf_apply _ _),
    copyBytes_shaped hf, Eff.bind_of_ok (Eff.ofExcept_apply _ _), hpos]
  change (store (init + newoff) (image f d) >>= fun _ => pure _) _ = _
  rw [Eff.bind_of_ok (store_of_le (by omega) (by rw [length_resize]; omega)),
    overwrite_resize_of_le _ (by rw [hnotelen]; omega), hnotelen, hpad,
    toFieldOffset_of_mem (by omega) (by omega)]
  rfl

/-- The running offset after `m` of the fields without a fixed offset, in exact
arithmetic from where the layout says they begin. -/
def storedEnd (s : Schema) (l : List FieldInfo) (data : List Datum) (m : Nat) : Int :=
  ((storedOrder l).take m).foldl (storedStep l data) s.varlenPayloadBegin

/-- The conditions under which a payload can be written behind `init` bytes and
read back. -/
structure Writable (s : Schema) (l : List FieldInfo) (data : List Datum) (init : Nat) : Prop where
  arranged : Arranged s l
  sectioned : Sectioned s l
  payload_eq : s.varlenPayloadBegin =
    s.varlenEndArrayBegin + 2 * (l.countP FieldInfo.isVarlen : Nat)
  nullbit_lt : ∀ f ∈ l, f.isNullable = true → f.nullbitId < 8 * bitmapSize l
  nullbit_injective : ∀ (i j : Nat) (f g : FieldInfo), l[i]? = some f →
    l[j]? = some g → f.isNullable = true → g.isNullable = true →
    f.nullbitId = g.nullbitId → i = j
  data_length : data.length = l.length
  nullable_of_null : ∀ (i : Nat) (f : FieldInfo) (d : Datum), l[i]? = some f →
    data[i]? = some d → d.isnull = true → f.isNullable = true
  fits : init + alignUp 8 (storedEnd s l data (storedOrder l).length) ≤ 32767

theorem fieldAt_eq {s : Schema} {l : List FieldInfo} (ha : Arranged s l) {i : Nat}
    {f : FieldInfo} (hf : l[i]? = some f) : s.fieldAt i = f := by
  rw [← ha.fields_eq, fields] at hf
  have hlt := (List.getElem?_eq_some_iff.mp hf).1
  rw [List.length_take] at hlt
  rw [List.getElem?_take_of_lt (by omega)] at hf
  rw [fieldAt, List.getD_eq_getElem?_getD, hf, Option.getD_some]

theorem storedStep_eq {l : List FieldInfo} {data : List Datum} {i : Nat} {f : FieldInfo}
    {d : Datum} (hf : l[i]? = some f) (hd : data[i]? = some d) (off : Int) :
    storedStep l data off i =
      if d.isnull then off else alignUp f.typalign.toNat off + storedSize f d := by
  simp only [storedStep, List.getD_eq_getElem?_getD, hf, hd, Option.getD_some]

section Stored

variable {s : Schema} {l : List FieldInfo} {data : List Datum}

theorem storedEnd_succ {m i : Nat} (hi : (storedOrder l)[m]? = some i) :
    storedEnd s l data (m + 1) = storedStep l data (storedEnd s l data m) i := by
  rw [storedEnd, List.take_add_one, hi, List.foldl_append]
  rfl

theorem exists_stored (hlen : data.length = l.length) {m : Nat}
    (hm : m < (storedOrder l).length) :
    ∃ i f d, (storedOrder l)[m]? = some i ∧ l[i]? = some f ∧ data[i]? = some d := by
  obtain ⟨i, hi⟩ : ∃ i, (storedOrder l)[m]? = some i :=
    ⟨_, List.getElem?_eq_getElem hm⟩
  have hmem : i ∈ storedOrder l := List.mem_of_getElem? hi
  have hf : ∃ f, l[i]? = some f := by
    rcases List.mem_append.mp hmem with h | h <;>
      exact ⟨_, (mem_indices.mp h).choose_spec.1⟩
  obtain ⟨f, hf⟩ := hf
  have hlt := (List.getElem?_eq_some_iff.mp hf).1
  exact ⟨i, f, _, hi, hf, List.getElem?_eq_getElem (by omega)⟩

/-- The first places of the stored order are the variable-length fields, by
rank. -/
theorem stored_varlen_iff {m i : Nat} {f : FieldInfo}
    (hi : (storedOrder l)[m]? = some i) (hf : l[i]? = some f) :
    (f.isVarlen = true ↔ m < l.countP FieldInfo.isVarlen) ∧
      (f.isVarlen = true → rank FieldInfo.isVarlen l i = m) ∧
      (f.isVarlen = false → f.isNullableFixed = true) := by
  unfold storedOrder at hi
  rcases lt_or_ge m (l.countP FieldInfo.isVarlen) with hm | hm
  · rw [List.getElem?_append_left (by rwa [length_indices]), getElem?_indices_eq_some] at hi
    obtain ⟨⟨g, hg, hv⟩, hrank⟩ := hi
    rw [hf] at hg
    cases hg
    simp [hv, hm, hrank]
  · rw [List.getElem?_append_right (by rwa [length_indices]), getElem?_indices_eq_some] at hi
    obtain ⟨⟨g, hg, hn⟩, -⟩ := hi
    rw [hf] at hg
    cases hg
    have hv := (FieldInfo.isNullableFixed_iff.mp hn).2
    simp [hv, hn, hm]

theorem storedEnd_le_succ (hs : Sectioned s l) (hlen : data.length = l.length) {m : Nat}
    (hm : m < (storedOrder l).length) :
    storedEnd s l data m ≤ storedEnd s l data (m + 1) := by
  obtain ⟨i, f, d, hi, hf, hd⟩ := exists_stored hlen hm
  rw [storedEnd_succ hi, storedStep_eq hf hd]
  split
  · exact le_rfl
  · have := le_alignUp (hs.shaped f (List.mem_of_getElem? hf)).align.pos (storedEnd s l data m)
    omega

theorem storedEnd_mono (hs : Sectioned s l) (hlen : data.length = l.length) {m n : Nat}
    (hmn : m ≤ n) (hn : n ≤ (storedOrder l).length) :
    storedEnd s l data m ≤ storedEnd s l data n := by
  induction n, hmn using Nat.le_induction with
  | base => exact le_rfl
  | succ n _ ih => exact (ih (by omega)).trans (storedEnd_le_succ hs hlen (by omega))

end Stored

theorem plainEnd_take_succ {l : List FieldInfo} {i : Nat} {f : FieldInfo}
    (hf : l[i]? = some f) :
    plainEnd (l.take (i + 1)) = plainStep (plainEnd (l.take i)) f := by
  rw [List.take_add_one, hf, Option.toList_some, plainEnd_concat]

theorem plainEnd_take_mono {l : List FieldInfo} (hl : ∀ f ∈ l, f.Shaped) {i j : Nat}
    (hij : i ≤ j) : plainEnd (l.take i) ≤ plainEnd (l.take j) := by
  induction j, hij using Nat.le_induction with
  | base => exact le_rfl
  | succ j _ ih =>
      rcases hf : l[j]? with _ | f
      · rw [List.take_add_one, hf, Option.toList_none, List.append_nil]
        exact ih
      · have hshape := hl f (List.mem_of_getElem? hf)
        rw [plainEnd_take_succ hf, plainStep]
        split
        · rename_i hp
          have hle := le_alignUp hshape.align.pos (plainEnd (l.take j))
          have hlen := (hshape.typlen (FieldInfo.isVarlen_of_isPlain hp)).1
          omega
        · exact ih

theorem Sectioned.plain_slot {s : Schema} {l : List FieldInfo} (hs : Sectioned s l) {i : Nat} {f : FieldInfo}
    (hf : l[i]? = some f) (hp : f.isPlain = true) :
    plainEnd (l.take i) ≤ f.offset ∧
      f.offset + f.typlen = plainEnd (l.take (i + 1)) ∧
      f.offset + f.typlen ≤ s.nullBitmapBegin := by
  have hshape := hs.shaped f (List.mem_of_getElem? hf)
  have hoff := hs.offset_plain i f hf hp
  have hend : f.offset + f.typlen = plainEnd (l.take (i + 1)) := by
    rw [plainEnd_take_succ hf, plainStep, if_pos hp, hoff]
  refine ⟨by rw [hoff]; exact le_alignUp hshape.align.pos _, hend, ?_⟩
  have hlt := (List.getElem?_eq_some_iff.mp hf).1
  have hmono := plainEnd_take_mono hs.shaped (show i + 1 ≤ l.length by omega)
  rw [List.take_length] at hmono
  have := hs.plainEnd_le
  omega

theorem Sectioned.plain_disjoint {s : Schema} {l : List FieldInfo} (hs : Sectioned s l) {i j : Nat}
    {f g : FieldInfo} (hf : l[i]? = some f) (hp : f.isPlain = true)
    (hg : l[j]? = some g) (hq : g.isPlain = true) (hij : i ≠ j) :
    f.offset + f.typlen ≤ g.offset ∨ g.offset + g.typlen ≤ f.offset := by
  obtain ⟨hf₁, hf₂, -⟩ := hs.plain_slot hf hp
  obtain ⟨hg₁, hg₂, -⟩ := hs.plain_slot hg hq
  rcases Nat.lt_or_ge i j with hlt | hge
  · have := plainEnd_take_mono hs.shaped (show i + 1 ≤ j by omega)
    omega
  · have := plainEnd_take_mono hs.shaped (show j + 1 ≤ i by omega)
    omega

theorem storedSize_plain {f : FieldInfo} (hf : f.Shaped) (hp : f.isPlain = true) (d : Datum) :
    (storedSize f d : Int) = f.typlen := by
  have hv := FieldInfo.isVarlen_of_isPlain hp
  have := (hf.typlen hv).1
  rw [storedSize, hv, if_neg Bool.false_ne_true]
  omega

/-- The loop over fields with a fixed offset puts each into its slot and leaves
the header, the sections behind the slots and the other slots alone. -/
theorem writeFields_plain {s : Schema} {l : List FieldInfo} (data : List Datum) (init : Nat)
    (off : Int) (ha : Arranged s l) (hs : Sectioned s l) (rest : List Nat) {is : List Nat}
    (hnodup : is.Nodup)
    (his : ∀ i ∈ is, ∃ f d, l[i]? = some f ∧ f.isPlain = true ∧
      data[i]? = some d ∧ d.isnull = false)
    (buf : ByteString) (hlen : init + s.nullBitmapBegin ≤ buf.length) :
    ∃ buf', writeFields s init data (is ++ rest) off buf = writeFields s init data rest off buf' ∧
      buf'.length = buf.length ∧
      (∀ pos : Nat, pos < init ∨ init + s.nullBitmapBegin ≤ pos → buf'[pos]? = buf[pos]?) ∧
      ∀ (i : Nat) (f : FieldInfo) (d : Datum), l[i]? = some f → f.isPlain = true →
        data[i]? = some d →
        slice buf' (init + f.offset).toNat (storedSize f d) =
          if i ∈ is then image f d else slice buf (init + f.offset).toNat (storedSize f d) := by
  induction is generalizing buf with
  | nil => exact ⟨buf, rfl, rfl, fun _ _ => rfl, fun i f d _ _ _ => by simp⟩
  | cons i is ih =>
      obtain ⟨f, d, hf, hp, hd, hnull⟩ := his i List.mem_cons_self
      have hshape := hs.shaped f (List.mem_of_getElem? hf)
      have hv := FieldInfo.isVarlen_of_isPlain hp
      have hoff := ha.offset_plain i f hf hp
      have hsize := storedSize_plain hshape hp d
      obtain ⟨-, -, hslot⟩ := hs.plain_slot hf hp
      have hle : (init + f.offset).toNat + (image f d).length ≤ buf.length := by
        rw [length_image]
        omega
      set buf₁ := overwrite buf (init + f.offset).toNat (image f d) with hbuf₁
      have hlen₁ : buf₁.length = buf.length := length_overwrite hle
      rw [List.nodup_cons] at hnodup
      obtain ⟨buf', hrun, hlen', hframe, hslots⟩ := ih hnodup.2
        (fun j hj => his j (List.mem_cons_of_mem i hj)) buf₁ (by omega)
      have hstep : writeFields s init data (i :: is ++ rest) off buf =
          writeFields s init data (is ++ rest) off buf₁ := by
        rw [List.cons_append, writeFields, hd, fieldAt_eq ha hf]
        simp only
        rw [Eff.bind_of_ok (writeField_plain hshape hv hoff hnull (by omega))]
      refine ⟨buf', hstep.trans hrun, hlen'.trans hlen₁, ?_, ?_⟩
      · intro pos hpos
        rw [hframe pos hpos, hbuf₁, getElem?_overwrite hle, if_neg]
        rw [length_image]
        omega
      · intro j g e hg hq he
        rw [hslots j g e hg hq he]
        by_cases hji : j = i
        · -- the field itself: the rest of the loop leaves its slot alone
          subst hji
          rw [hf] at hg
          cases hg
          rw [hd] at he
          cases he
          rw [if_neg hnodup.1, if_pos List.mem_cons_self, hbuf₁]
          have hself := slice_overwrite_self _ hle
          rwa [length_image] at hself
        · have hgshape := hs.shaped g (List.mem_of_getElem? hg)
          have hgsize := storedSize_plain hgshape hq e
          have hgoff := ha.offset_plain j g hg hq
          have hdisj := hs.plain_disjoint hf hp hg hq (Ne.symm hji)
          have hmem : j ∈ i :: is ↔ j ∈ is := by simp [hji]
          simp only [hmem]
          split
          · rfl
          · rw [hbuf₁, slice_overwrite_of_disjoint hle]
            rw [length_image]
            omega

/-- The invariant of the loop over the fields without a fixed offset, after `m`
of them. `buf₀` is the buffer before the first of them. -/
structure Written (s : Schema) (l : List FieldInfo) (data : List Datum) (init : Nat)
    (buf₀ : ByteString) (m : Nat) (buf : ByteString) : Prop where
  length : (buf.length : Int) = init + storedEnd s l data m
  frame : ∀ pos : Nat, pos < init + s.nullBitmapBegin → buf[pos]? = buf₀[pos]?
  bits : ∀ id : Nat, id < 8 * bitmapSize l →
    (bitSet (buf.drop (init + s.nullBitmapBegin).toNat) id = true ↔
      ∃ j < m, ∃ i f d, (storedOrder l)[j]? = some i ∧ l[i]? = some f ∧
        data[i]? = some d ∧ d.isnull = true ∧ f.nullbitId = id)
  ends : ∀ j < m, j < l.countP FieldInfo.isVarlen →
    slice buf (init + s.varlenEndArrayBegin + 2 * j).toNat 2 =
      fieldOffsetBytes (storedEnd s l data (j + 1))
  content : ∀ j < m, ∀ (i : Nat) (f : FieldInfo) (d : Datum),
    (storedOrder l)[j]? = some i → l[i]? = some f → data[i]? = some d →
    d.isnull = false →
    slice buf (init + alignUp f.typalign.toNat (storedEnd s l data j)).toNat (storedSize f d) =
      image f d

end Schema

end Taco
