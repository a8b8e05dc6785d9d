import TacoDB.Catalog.FindNextToken
import TacoDB.Catalog.ReaderTotal

/-!
# What `FindNextToken` reads and writes

The function on its memory: `start_pos`, which is passed by reference, and the static
`parse_buf` with its 4096 bytes. A read behind the last byte of the line and a write behind
the last byte of `parse_buf` are undefined behaviour here, and so are a `memcpy` and a
`string_view` that reach further. Every call does on this memory what `findNextToken` says,
so none of this happens, whatever an earlier call has left in the buffer.

The loops of `next` compare `start_pos` with the length of the line. Each token takes the
position forward and not behind the end, so they come to an end on every line. The loop over
the values also calls input functions; those a reader has entered raise errors only.
-/

namespace Taco

open Buffer

namespace InitDataFileReader

structure ParseBuf where
  bytes : ByteString
  length_bytes : bytes.length = parseLimit

namespace ParseBuf

def set (buf : ParseBuf) (k : Nat) (c : Byte) : ParseBuf :=
  ⟨buf.bytes.set k c, by rw [List.length_set, buf.length_bytes]⟩

def copy (buf : ParseBuf) (src : ByteString) (h : src.length ≤ parseLimit) : ParseBuf :=
  ⟨src ++ buf.bytes.drop src.length, by
    rw [List.length_append, List.length_drop, buf.length_bytes]
    omega⟩

theorem take_set {buf : ParseBuf} {k : Nat} (h : k < parseLimit) (c : Byte) :
    (buf.set k c).bytes.take (k + 1) = buf.bytes.take k ++ [c] := by
  have hlen := buf.length_bytes
  rw [set, List.take_add_one, List.take_set_of_le (Nat.le_refl k),
    List.getElem?_set_self (by omega)]
  rfl

theorem take_copy (buf : ParseBuf) {src : ByteString} (h : src.length ≤ parseLimit) :
    (buf.copy src h).bytes.take src.length = src := by
  rw [copy, List.take_left]

end ParseBuf

/-- The memory a call works on. -/
structure ParseMemory where
  startPos : Nat
  parseBuf : ParseBuf

namespace ParseMemory

def charAt (str : ByteString) (i : Nat) : Eff Failure ParseMemory Byte :=
  match str[i]? with
  | some c => pure c
  | none => Eff.fail (.undefined "read past the end of the line")

def store (k : Nat) (c : Byte) : Eff Failure ParseMemory Unit :=
  if k < parseLimit then Eff.modifyState fun m => { m with parseBuf := m.parseBuf.set k c }
  else Eff.fail (.undefined "write past the end of parse_buf")

/-- `memcpy(parse_buf, cstr + s, n)`. -/
def memcpy (str : ByteString) (s n : Nat) : Eff Failure ParseMemory Unit :=
  if s + n ≤ str.length then
    if h : (slice str s n).length ≤ parseLimit then
      Eff.modifyState fun m => { m with parseBuf := m.parseBuf.copy (slice str s n) h }
    else Eff.fail (.undefined "write past the end of parse_buf")
  else Eff.fail (.undefined "read past the end of the line")

/-- `absl::string_view(p + s, n)`, where `p` points to `bytes`. -/
def view (bytes : ByteString) (s n : Nat) : Eff Failure ParseMemory (Option ByteString) :=
  if s + n ≤ bytes.length then return some (slice bytes s n)
  else Eff.fail (.undefined "read past the end of the view")

def setStartPos (pos : Nat) : Eff Failure ParseMemory Unit :=
  Eff.modifyState fun m => { m with startPos := pos }

/-- The view that is returned at the closing quote at `i`; `copied` is `cstr == parse_buf`. -/
def tokenView (str : ByteString) (s i : Nat) (copied : Bool) (bufi : Nat) :
    Eff Failure ParseMemory (Option ByteString) := do
  let m ← Eff.getState
  if copied then view m.parseBuf.bytes 0 bufi else view str s (i - s)

def closeQuote (str : ByteString) (s i : Nat) (copied : Bool) (bufi : Nat) :
    Eff Failure ParseMemory (Option ByteString) :=
  if i + 1 = str.length then do
    setStartPos (i + 1)
    tokenView str s i copied bufi
  else do
    let d ← charAt str (i + 1)
    if d = charSpace then do
      setStartPos (i + 2)
      tokenView str s i copied bufi
    else return none

/-- `bufi` at an escape at `i`, unless what is in front of it is too long. At the first
escape the bytes in front of it are copied. -/
def beginCopy (str : ByteString) (s i : Nat) (copied : Bool) (bufi : Nat) :
    Eff Failure ParseMemory (Option Nat) :=
  if copied then return some bufi
  else if parseLimit ≤ i - s then return none
  else do
    memcpy str s (i - s)
    return some (i - s)

/-- The loop over a quoted token that begins at `s`. The number of iterations is bounded by
the first argument. -/
def quotedLoop (str : ByteString) (s : Nat) :
    Nat → Nat → Bool → Nat → Eff Failure ParseMemory (Option ByteString)
  | 0, _, _, _ => Eff.fail .diverges
  | n + 1, i, copied, bufi =>
    if i < str.length then do
      let c ← charAt str i
      if c = charQuote then closeQuote str s i copied bufi
      else if c = charBackslash then
        if i + 1 = str.length then return none
        else do
          let d ← charAt str (i + 1)
          if d ≠ charBackslash ∧ d ≠ charQuote then return none
          else do
            match ← beginCopy str s i copied bufi with
            | none => return none
            | some bufi =>
              if parseLimit ≤ bufi then return none
              else do
                store bufi d
                quotedLoop str s n (i + 2) true (bufi + 1)
      else if copied then
        if parseLimit ≤ bufi then return none
        else do
          store bufi c
          quotedLoop str s n (i + 1) true (bufi + 1)
      else quotedLoop str s n (i + 1) false bufi
    else Eff.fail (.assertion "false")

/-- The loop over a token without quotes; it returns `i`. The number of iterations is bounded
by the first argument. -/
def plainLoop (str : ByteString) : Nat → Nat → Eff Failure ParseMemory Nat
  | 0, _ => Eff.fail .diverges
  | n + 1, i =>
    if i < str.length then do
      let c ← charAt str i
      if c = charSpace then return i else plainLoop str n (i + 1)
    else return i

def findNextToken (str : ByteString) : Eff Failure ParseMemory (Option ByteString) := do
  let m ← Eff.getState
  if str.length ≤ m.startPos then return none
  else do
    let c ← charAt str m.startPos
    if c = charQuote then
      quotedLoop str (m.startPos + 1) str.length (m.startPos + 1) false 0
    else do
      let i ← plainLoop str str.length (m.startPos + 1)
      setStartPos (if i = str.length then i else i + 1)
      view str m.startPos (i - m.startPos)

section Refinement

variable {str : ByteString} {s i n : Nat} {copied : Bool} {bufi : Nat} {buf : Option ByteString}
  {m : ParseMemory}

theorem charAt_apply {c : Byte} (h : str[i]? = some c) (m : ParseMemory) :
    charAt str i m = (.ok c, m) := by
  rw [charAt, h]
  rfl

theorem store_apply {k : Nat} (h : k < parseLimit) (c : Byte) (m : ParseMemory) :
    store k c m = (.ok (), { m with parseBuf := m.parseBuf.set k c }) := by
  rw [store, if_pos h]
  rfl

theorem view_apply {bytes : ByteString} (h : s + n ≤ bytes.length) (m : ParseMemory) :
    view bytes s n m = (.ok (some (slice bytes s n)), m) := by
  rw [view, if_pos h]
  rfl

theorem memcpy_apply (hread : s + n ≤ str.length) (hwrite : n ≤ parseLimit) (m : ParseMemory) :
    ∃ parseBuf : ParseBuf, parseBuf.bytes.take n = slice str s n ∧
      memcpy str s n m = (.ok (), { m with parseBuf }) := by
  have hlen := length_slice hread
  have hfits : (slice str s n).length ≤ parseLimit := by rw [hlen]; exact hwrite
  refine ⟨m.parseBuf.copy (slice str s n) hfits, ?_, ?_⟩
  · have htake := ParseBuf.take_copy m.parseBuf hfits
    rw [hlen] at htake
    exact htake
  · rw [memcpy, if_pos hread, dif_pos hfits]
    rfl

def Holds (m : ParseMemory) (copied : Bool) (bufi : Nat) : Option ByteString → Prop
  | none => copied = false
  | some b => copied = true ∧ bufi = b.length ∧ m.parseBuf.bytes.take bufi = b

/-- The outcome of a call at `startPos` is the result `r`, with `start_pos` behind the token
or where it was. -/
def Does (startPos : Nat) (r : Except Failure (Option (ByteString × Nat)))
    (out : Except Failure (Option ByteString) × ParseMemory) : Prop :=
  out.1 = r.map (Option.map Prod.fst) ∧
    out.2.startPos = match r with
      | .ok (some (_, pos)) => pos
      | _ => startPos

theorem does_null (m : ParseMemory) : Does m.startPos (.ok none) (.ok none, m) := ⟨rfl, rfl⟩

theorem Holds.length_le {b : ByteString} (h : Holds m copied bufi (some b)) :
    bufi ≤ parseLimit := by
  obtain ⟨-, rfl, htake⟩ := h
  have hlen := congrArg List.length htake
  rw [List.length_take, m.parseBuf.length_bytes] at hlen
  omega

theorem Holds.push {b : ByteString} (h : Holds m copied bufi (some b)) (c : Byte) :
    (parseLimit ≤ bufi ∧ pushParseBuf b c = none) ∨
      (bufi < parseLimit ∧ pushParseBuf b c = some (b ++ [c]) ∧
        Holds { m with parseBuf := m.parseBuf.set bufi c } true (bufi + 1) (some (b ++ [c]))) := by
  obtain ⟨-, rfl, htake⟩ := h
  rcases Nat.lt_or_ge b.length parseLimit with hlt | hge
  · refine Or.inr ⟨hlt, if_neg (by omega), rfl, ?_, ?_⟩
    · rw [List.length_append, List.length_singleton]
    · rw [ParseBuf.take_set hlt, htake]
  · exact Or.inl ⟨hge, if_pos hge⟩

theorem tokenView_apply (h : Holds m copied bufi buf) (hs : s ≤ i) (hi : i ≤ str.length) :
    tokenView str s i copied bufi m = (.ok (some (tokenSoFar str s i buf)), m) := by
  rw [tokenView, Eff.bind_of_ok (Eff.getState_apply m)]
  cases buf with
  | none =>
      rw [show copied = false from h, if_neg Bool.false_ne_true, view_apply (by omega)]
      rfl
  | some b =>
      have hle := h.length_le
      obtain ⟨rfl, -, htake⟩ := h
      rw [if_pos rfl, view_apply (by rw [m.parseBuf.length_bytes]; omega), slice, List.drop_zero,
        htake]
      rfl

/-- The token is a view of the line or of the buffer, and `start_pos` does not matter to
it. -/
theorem tokenView_moved (h : Holds m copied bufi buf) (hs : s ≤ i) (hi : i ≤ str.length)
    (pos : Nat) :
    Does m.startPos (.ok (some (tokenSoFar str s i buf, pos)))
      (tokenView str s i copied bufi { m with startPos := pos }) := by
  have h' : Holds { m with startPos := pos } copied bufi buf := by
    cases buf with
    | none => exact h
    | some b => exact h
  rw [tokenView_apply h' hs hi]
  exact ⟨rfl, rfl⟩

theorem closeQuote_does (h : Holds m copied bufi buf) (hs : s ≤ i) (hi : i < str.length) :
    Does m.startPos (.ok ((afterQuote str i).map fun pos => (tokenSoFar str s i buf, pos)))
      (closeQuote str s i copied bufi m) := by
  unfold closeQuote afterQuote
  by_cases hend : i + 1 = str.length
  · rw [if_pos hend, List.getElem?_eq_none (by omega)]
    exact tokenView_moved h hs hi.le (i + 1)
  · have hget := List.getElem?_eq_getElem (show i + 1 < str.length by omega)
    rw [if_neg hend, Eff.bind_of_ok (charAt_apply hget m), hget]
    dsimp only
    by_cases hspace : str[i + 1] = charSpace
    · rw [if_pos hspace, if_pos hspace]
      exact tokenView_moved h hs hi.le (i + 2)
    · rw [if_neg hspace, if_neg hspace]
      exact does_null m

theorem beginCopy_apply (h : Holds m copied bufi buf) (hs : s ≤ i) (hi : i ≤ str.length) :
    (parseBufAt str s i buf = none ∧ beginCopy str s i copied bufi m = (.ok none, m)) ∨
      ∃ b parseBuf, parseBufAt str s i buf = some b ∧
        beginCopy str s i copied bufi m = (.ok (some b.length), { m with parseBuf }) ∧
        Holds { m with parseBuf } true b.length (some b) := by
  cases buf with
  | some b =>
      obtain ⟨rfl, rfl, htake⟩ := h
      exact Or.inr ⟨b, m.parseBuf, rfl, rfl, rfl, rfl, htake⟩
  | none =>
      rw [show copied = false from h]
      unfold beginCopy parseBufAt
      rw [if_neg Bool.false_ne_true]
      by_cases hlim : parseLimit ≤ i - s
      · rw [if_pos hlim, if_pos hlim]
        exact Or.inl ⟨rfl, rfl⟩
      · have hlen : (slice str s (i - s)).length = i - s := length_slice (by omega)
        obtain ⟨parseBuf, htake, hcopy⟩ := memcpy_apply (show s + (i - s) ≤ str.length by omega)
          (show i - s ≤ parseLimit by omega) m
        rw [if_neg hlim, if_neg hlim, Eff.bind_of_ok hcopy]
        refine Or.inr ⟨slice str s (i - s), parseBuf, rfl, ?_, rfl, rfl, ?_⟩
        · rw [hlen]
          rfl
        · rw [hlen]
          exact htake

theorem push_does (next : Option ByteString → Except Failure (Option (ByteString × Nat)))
    {loop : Eff Failure ParseMemory (Option ByteString)} {b : ByteString} {startPos : Nat}
    (h : Holds m copied bufi (some b)) (hpos : m.startPos = startPos) (c : Byte)
    (hloop : ∀ m' : ParseMemory, m'.startPos = startPos →
      Holds m' true (bufi + 1) (some (b ++ [c])) → Does startPos (next (some (b ++ [c]))) (loop m')) :
    Does startPos
      (match pushParseBuf b c with
        | none => .ok none
        | some b => next (some b))
      ((if parseLimit ≤ bufi then return none
        else do
          store bufi c
          loop) m) := by
  rcases h.push c with ⟨hfull, hpush⟩ | ⟨hlt, hpush, hholds⟩
  · rw [hpush, if_pos hfull, ← hpos]
    exact does_null m
  · rw [hpush, if_neg (by omega), Eff.bind_of_ok (store_apply hlt c m)]
    exact hloop _ hpos hholds

theorem quotedLoop_does {startPos : Nat} (h : Holds m copied bufi buf) (hs : s ≤ i)
    (hi : i ≤ str.length) (hn : str.length < i + n) (hpos : m.startPos = startPos) :
    Does startPos (scanQuoted str s n i buf) (quotedLoop str s n i copied bufi m) := by
  induction n generalizing i copied bufi buf m with
  | zero => omega
  | succ n ih =>
      rw [scanQuoted, quotedLoop]
      rcases Nat.eq_or_lt_of_le hi with hend | hlt
      · rw [List.getElem?_eq_none (by omega), if_neg (by omega), ← hpos]
        exact ⟨rfl, rfl⟩
      have hget := List.getElem?_eq_getElem hlt
      rw [if_pos hlt, Eff.bind_of_ok (charAt_apply hget m), hget]
      dsimp only
      by_cases hq : str[i] = charQuote
      · rw [if_pos hq, if_pos hq, ← hpos]
        exact closeQuote_does h hs hlt
      rw [if_neg hq, if_neg hq]
      by_cases hb : str[i] = charBackslash
      · rw [if_pos hb, if_pos hb]
        by_cases hlast : i + 1 = str.length
        · rw [if_pos hlast, List.getElem?_eq_none (by omega), ← hpos]
          exact does_null m
        have hget' := List.getElem?_eq_getElem (show i + 1 < str.length by omega)
        rw [if_neg hlast, Eff.bind_of_ok (charAt_apply hget' m), hget']
        dsimp only
        by_cases hbad : str[i + 1] ≠ charBackslash ∧ str[i + 1] ≠ charQuote
        · rw [if_pos hbad, if_pos hbad, ← hpos]
          exact does_null m
        rw [if_neg hbad, if_neg hbad]
        rcases beginCopy_apply h hs hi with ⟨hnone, hcopy⟩ | ⟨b, parseBuf, hsome, hcopy, hholds⟩
        · rw [Eff.bind_of_ok hcopy, hnone, ← hpos]
          exact does_null m
        · rw [Eff.bind_of_ok hcopy, hsome]
          exact push_does (scanQuoted str s n (i + 2)) hholds hpos _
            fun m' hpos' h' => ih h' (by omega) (by omega) (by omega) hpos'
      · rw [if_neg hb, if_neg hb]
        cases buf with
        | none =>
            rw [show copied = false from h, if_neg Bool.false_ne_true]
            exact ih rfl (by omega) hlt (by omega) hpos
        | some b =>
            rw [h.1, if_pos rfl]
            exact push_does (scanQuoted str s n (i + 1)) h hpos _
              fun m' hpos' h' => ih h' (by omega) hlt (by omega) hpos'

theorem plainLoop_apply (hi : i ≤ str.length) (hn : str.length < i + n) :
    plainLoop str n i m = (.ok (plainEnd str n i), m) := by
  induction n generalizing i with
  | zero => omega
  | succ n ih =>
      rw [plainLoop, plainEnd]
      rcases Nat.eq_or_lt_of_le hi with hend | hlt
      · rw [List.getElem?_eq_none (by omega), if_neg (by omega)]
        rfl
      have hget := List.getElem?_eq_getElem hlt
      rw [if_pos hlt, Eff.bind_of_ok (charAt_apply hget m), hget]
      dsimp only
      by_cases hspace : str[i] = charSpace
      · rw [if_pos hspace, if_pos hspace]
        rfl
      · rw [if_neg hspace, if_neg hspace]
        exact ih hlt (by omega)

/-- On any memory, the function does what the model without memory says. -/
theorem findNextToken_does (str : ByteString) (m : ParseMemory) :
    Does m.startPos (InitDataFileReader.findNextToken str m.startPos) (findNextToken str m) := by
  unfold InitDataFileReader.findNextToken findNextToken
  rw [Eff.bind_of_ok (Eff.getState_apply m)]
  rcases Nat.lt_or_ge m.startPos str.length with hlt | hge
  · have hnext : m.startPos + 1 ≤ str.length := hlt
    have hget := List.getElem?_eq_getElem hlt
    rw [if_neg (by omega), Eff.bind_of_ok (charAt_apply hget m), hget]
    dsimp only
    by_cases hq : str[m.startPos] = charQuote
    · rw [if_pos hq, if_pos hq]
      exact quotedLoop_does (show Holds m false 0 none from rfl) (Nat.le_refl _) hnext (by omega) rfl
    · have hbounds := plainEnd_bounds str.length (m.startPos + 1) hnext
      rw [if_neg hq, if_neg hq, Eff.bind_of_ok (plainLoop_apply hnext (by omega)),
        Eff.bind_of_ok (show setStartPos _ m = _ from rfl), view_apply (by omega)]
      exact ⟨rfl, rfl⟩
  · rw [List.getElem?_eq_none hge, if_pos hge]
    exact does_null m

end Refinement

end ParseMemory

/-- The loop over a quoted token raises nothing but the `ASSERT` behind it. -/
theorem scanQuoted_raises {str : ByteString} {s n i : Nat} {buf : Option ByteString} {e : Failure}
    (h : scanQuoted str s n i buf = .error e) : e = .assertion "false" := by
  induction n generalizing i buf with
  | zero => exact (Except.error.inj h).symm
  | succ n ih =>
      rw [scanQuoted] at h
      cases hget : str[i]? with
      | none =>
          rw [hget] at h
          exact (Except.error.inj h).symm
      | some c =>
          rw [hget] at h
          dsimp only at h
          split at h
          · cases h
          split at h
          · -- an escape
            split at h
            · cases h
            split at h
            · cases h
            split at h
            · cases h
            · exact ih h
          · split at h
            · exact ih h
            split at h
            · cases h
            · exact ih h

theorem findNextToken_raises {str : ByteString} {p : Nat} {e : Failure}
    (h : findNextToken str p = .error e) : e = .assertion "false" := by
  unfold findNextToken at h
  split at h
  · cases h
  · split at h
    · exact scanQuoted_raises h
    · cases h

section Loops

variable {num : Numbers} {others : BuiltinTable} {line : ByteString}

theorem readNumber_raises {t : IntType} {p : Nat} {e : Failure}
    (h : readNumber num t line p = .error e) : e = .assertion "false" := by
  rw [readNumber] at h
  cases htok : findNextToken line p with
  | error e' =>
      rw [htok] at h
      cases h
      exact findNextToken_raises htok
  | ok tok =>
      rw [htok] at h
      rcases tok with _ | ⟨token, pos⟩
      · cases h
      · cases h

/-- Every iteration of the loop over the columns takes the position forward. -/
theorem readColumns_ends {n p : Nat} (hp : p ≤ line.length) (hn : line.length ≤ p + n)
    (typid typparam : List Nat) : readColumns num line n p typid typparam ≠ .error .diverges := by
  induction n generalizing p typid typparam with
  | zero =>
      rw [readColumns, if_pos (by omega)]
      intro hdiv
      cases hdiv
  | succ n ih =>
      rw [readColumns]
      by_cases hend : p = line.length
      · rw [if_pos hend]
        intro hdiv
        cases hdiv
      rw [if_neg hend]
      cases hx : readNumber num ⟨false, 32⟩ line p with
      | error e =>
          rw [readNumber_raises hx]
          intro hdiv
          cases hdiv
      | ok x =>
          rcases x with _ | ⟨oid, p₁⟩
          · intro hdiv
            cases hdiv
          cases hy : readNumber num ⟨false, 64⟩ line p₁ with
          | error e =>
              rw [Eff.ok_bind]
              dsimp only
              rw [hy, readNumber_raises hy]
              intro hdiv
              cases hdiv
          | ok y =>
              rw [Eff.ok_bind]
              dsimp only
              rw [hy]
              rcases y with _ | ⟨param, p₂⟩
              · intro hdiv
                cases hdiv
              have hlt := readNumber_progress hx
              have hlt' := readNumber_progress hy
              exact ih hlt'.2 (by omega) _ _

def InfuncsRaise (r : InitDataFileReader) : Prop :=
  ∀ oid f, r.typInfuncs oid = some (some f) → RaisesErrors f

/-- Whatever the outcome, the input functions raise errors only if they did before. -/
def KeepsInfuncs {α : Type} (x : Eff Failure InitDataFileReader α) : Prop :=
  Eff.Keeps (fun r r' => InfuncsRaise r → InfuncsRaise r') x

namespace KeepsInfuncs

variable {α β : Type}

theorem pure (a : α) : KeepsInfuncs (Pure.pure a) := Eff.Keeps.pure (fun _ h => h) a

theorem fail (e : Failure) : KeepsInfuncs (Eff.fail e : Eff Failure InitDataFileReader α) :=
  Eff.Keeps.fail (fun _ h => h) e

theorem getState : KeepsInfuncs Eff.getState := Eff.Keeps.getState fun _ h => h

theorem ofExcept (x : Except Failure α) : KeepsInfuncs (Eff.ofExcept x) :=
  Eff.Keeps.ofExcept (fun _ h => h) x

theorem modifyState {f : InitDataFileReader → InitDataFileReader}
    (h : ∀ r, (f r).typInfuncs = r.typInfuncs) : KeepsInfuncs (Eff.modifyState f) := by
  intro r hr oid g hg
  rw [Eff.modifyState_apply] at hg
  exact hr oid g ((congrFun (h r) oid).symm.trans hg)

theorem bind {x : Eff Failure InitDataFileReader α} {f : α → Eff Failure InitDataFileReader β}
    (hx : KeepsInfuncs x) (hf : ∀ a, KeepsInfuncs (f a)) : KeepsInfuncs (x >>= f) :=
  Eff.Keeps.bind (fun _ _ _ h h' hr => h' (h hr)) hx hf

theorem ite {c : Prop} [Decidable c] {x y : Eff Failure InitDataFileReader α}
    (hx : KeepsInfuncs x) (hy : KeepsInfuncs y) : KeepsInfuncs (if c then x else y) := by
  split
  · exact hx
  · exact hy

theorem finish (state : InitLineType) : KeepsInfuncs (InitDataFileReader.finish state) :=
  bind (modifyState fun _ => rfl) fun _ => pure state

theorem setInfunc (typid : Nat) {finfo : Option FunctionInfo}
    (h : ∀ f, finfo = some f → RaisesErrors f) :
    KeepsInfuncs (InitDataFileReader.setInfunc typid finfo) := by
  intro r hr oid f hf
  rw [InitDataFileReader.setInfunc, Eff.modifyState_apply] at hf
  dsimp only at hf
  split at hf
  · exact h f (Option.some.inj hf)
  · exact hr oid f hf

theorem infunc (typid : Nat) : KeepsInfuncs (InitDataFileReader.infunc typid) := by
  refine bind getState fun r => ?_
  cases r.typInfuncs typid with
  | some finfo => exact pure finfo
  | none => exact bind (setInfunc typid nofun) fun _ => pure none

theorem assert (cond : Bool) (text : String) : KeepsInfuncs (Taco.assert cond text) :=
  ite (pure ()) (fail _)

theorem readValue (s : Schema) (i : Nat) (token : ByteString) :
    KeepsInfuncs (InitDataFileReader.readValue s i token) :=
  bind (infunc _) fun _ => bind (assert _ _) fun _ => ofExcept _

theorem readValues (line : ByteString) (n p : Nat) (data : List Datum) :
    KeepsInfuncs (InitDataFileReader.readValues line n p data) := by
  induction n generalizing p data with
  | zero => exact ite (pure _) (fail _)
  | succ n ih =>
      refine ite (pure _) (bind getState fun r => ?_)
      cases r.schema with
      | none => exact fail _
      | some s =>
          refine ite (pure _) (bind (ofExcept _) fun tok => ?_)
          rcases tok with _ | ⟨token, pos⟩
          · exact pure _
          · exact bind (readValue s _ token) fun d => ite (pure _) (ih pos (data ++ [d]))

theorem readData (line : ByteString) (p : Nat) :
    KeepsInfuncs (InitDataFileReader.readData line p) := by
  refine bind (readValues line _ p []) fun data? => ?_
  cases data? with
  | none => exact finish _
  | some data =>
      refine bind getState fun r => ?_
      cases r.schema with
      | none => exact fail _
      | some s =>
          refine ite (finish _) (bind ?_ fun len => ite (finish _) (finish _))
          exact bind (modifyState fun _ => rfl) fun _ => ofExcept _

variable (num : Numbers) (others : BuiltinTable)

theorem enterInfuncs (typid : List Nat) :
    KeepsInfuncs (InitDataFileReader.enterInfuncs (findBuiltinFunction num others) typid) := by
  induction typid with
  | nil => exact pure ()
  | cons t typid ih =>
      unfold InitDataFileReader.enterInfuncs
      cases htyp : findBootstrapType t with
      | none => exact fail _
      | some typ =>
          obtain ⟨f, hf, hraises⟩ := infunc_bootstrap num others (findBootstrapType_some htyp).1
          refine bind getState fun r => ite ih (bind (setInfunc _ fun g hg => ?_) fun _ => ih)
          rw [hf] at hg
          exact Option.some.inj hg ▸ hraises

theorem enterTable (typid typparam : List Nat) :
    KeepsInfuncs (InitDataFileReader.enterTable (findBuiltinFunction num others) typid
      typparam) := by
  refine bind (modifyState fun _ => rfl) fun _ => ?_
  cases Schema.create typid typparam (List.replicate typid.length false) with
  | none => exact fail _
  | some s =>
      exact bind (ofExcept _) fun _ => bind (modifyState fun _ => rfl) fun _ =>
        bind (assert _ _) fun _ => bind (enterInfuncs num others typid) fun _ => finish _

theorem readTable (line : ByteString) (p : Nat) :
    KeepsInfuncs (InitDataFileReader.readTable num (findBuiltinFunction num others) line p) := by
  refine bind (ofExcept _) fun tabid? => ?_
  rcases tabid? with _ | ⟨tabid, pos⟩
  · exact finish _
  refine bind (modifyState fun _ => rfl) fun _ => bind (ofExcept _) fun columns? => ?_
  rcases columns? with _ | ⟨typid, typparam⟩
  · exact finish _
  · exact enterTable num others typid typparam

theorem readLine (line : ByteString) :
    KeepsInfuncs (InitDataFileReader.readLine num (findBuiltinFunction num others) line) := by
  refine bind (ofExcept _) fun tok => ?_
  rcases tok with _ | ⟨word, pos⟩
  · exact finish _
  · exact ite (readData line pos) (ite (readTable num others line pos) (finish _))

theorem next : KeepsInfuncs (InitDataFileReader.next num (findBuiltinFunction num others)) :=
  bind getState fun _ => ite (pure _) (bind (modifyState fun _ => rfl) fun _ =>
    ite (finish _) (readLine num others _))

end KeepsInfuncs

theorem infuncsRaise_afterCalls (input : FileStream) (lineno tabid n : Nat) :
    InfuncsRaise (afterCalls num (findBuiltinFunction num others) n
      (construct input lineno tabid)) := by
  induction n with
  | zero => exact nofun
  | succ n ih =>
      rw [afterCalls_succ]
      exact KeepsInfuncs.next num others _ ih

theorem infunc_apply (typid : Nat) (r : InitDataFileReader) :
    (infunc typid r).1 = .ok ((r.typInfuncs typid).getD none) := by
  rw [infunc, Eff.bind_of_ok (Eff.getState_apply r)]
  cases r.typInfuncs typid with
  | some finfo => rfl
  | none => rfl

theorem readValue_ends {r : InitDataFileReader} (hr : InfuncsRaise r) (s : Schema) (i : Nat)
    (token : ByteString) : (readValue s i token r).1 ≠ .error .diverges := by
  have hfinfo := infunc_apply (s.getFieldTypeId i) r
  rcases hrun : infunc (s.getFieldTypeId i) r with ⟨out, r'⟩
  rw [hrun] at hfinfo
  cases hfinfo
  rw [readValue, Eff.bind_of_ok hrun]
  cases hget : (r.typInfuncs (s.getFieldTypeId i)).getD none with
  | none =>
      intro hdiv
      cases hdiv
  | some f =>
      have hf : r.typInfuncs (s.getFieldTypeId i) = some (some f) := by
        cases hentry : r.typInfuncs (s.getFieldTypeId i) with
        | none =>
            rw [hentry] at hget
            cases hget
        | some finfo =>
            rw [hentry, Option.getD_some] at hget
            rw [hget]
      rw [Eff.bind_of_ok (show assert (some f).isSome _ r' = (.ok (), r') from rfl)]
      intro hcall
      obtain ⟨msg, hmsg⟩ := hr _ f hf token (s.getFieldTypeParam i) .diverges hcall
      cases hmsg

/-- Every iteration of the loop over the values takes the position forward. -/
theorem readValues_ends {r : InitDataFileReader} (hr : InfuncsRaise r) {n p : Nat}
    (hp : p ≤ line.length) (hn : line.length ≤ p + n) (data : List Datum) :
    (readValues line n p data r).1 ≠ .error .diverges := by
  induction n generalizing p data r with
  | zero =>
      rw [readValues, if_pos (by omega)]
      intro hdiv
      cases hdiv
  | succ n ih =>
      rw [readValues]
      by_cases hend : p = line.length
      · rw [if_pos hend]
        intro hdiv
        cases hdiv
      rw [if_neg hend, Eff.bind_of_ok (Eff.getState_apply r)]
      cases r.schema with
      | none =>
          intro hdiv
          cases hdiv
      | some s =>
          dsimp only
          by_cases hfull : (data.length : Int) = s.getNumFields
          · rw [if_pos hfull]
            intro hdiv
            cases hdiv
          rw [if_neg hfull]
          cases htok : findNextToken line p with
          | error e =>
              rw [Eff.bind_of_error (Eff.ofExcept_apply _ r), findNextToken_raises htok]
              intro hdiv
              cases hdiv
          | ok tok =>
              rw [Eff.bind_of_ok (Eff.ofExcept_apply _ r)]
              rcases tok with _ | ⟨token, pos⟩
              · intro hdiv
                cases hdiv
              have hvalue := readValue_ends hr s data.length token
              have hr' := KeepsInfuncs.readValue s data.length token r hr
              dsimp only
              rcases hrun : readValue s data.length token r with ⟨e | d, r'⟩
              · rw [hrun] at hvalue
                rw [Eff.bind_of_error hrun]
                intro hdiv
                cases hdiv
                exact hvalue rfl
              rw [hrun] at hr'
              rw [Eff.bind_of_ok hrun]
              split
              · intro hdiv
                cases hdiv
              · have hlt := findNextToken_progress htok
                exact ih hr' hlt.2 (by omega) (data ++ [d])

end Loops

/-- One call of `FindNextToken` on the line `str` and the memory `m`. It does what the reader's
loops rely on. A token takes `start_pos` forward, and not behind the end of the line; the null
view leaves it where it is. Nothing is raised but the `ASSERT` behind the loop over a quoted
token, so that nothing is read or written where it must not be, and no loop goes on for ever. -/
structure CallBounded (str : ByteString) (m : ParseMemory) : Prop where
  does : ParseMemory.Does m.startPos (findNextToken str m.startPos)
    (ParseMemory.findNextToken str m)
  forward : ∀ w m', ParseMemory.findNextToken str m = (.ok (some w), m') →
    m.startPos < m'.startPos ∧ m'.startPos ≤ str.length
  unchanged : ∀ m', ParseMemory.findNextToken str m = (.ok none, m') → m'.startPos = m.startPos
  raised : ∀ e m', ParseMemory.findNextToken str m = (.error e, m') →
    e = .assertion "false" ∧ m'.startPos = m.startPos

theorem callBounded (str : ByteString) (m : ParseMemory) : CallBounded str m := by
  have hdoes := ParseMemory.findNextToken_does str m
  obtain ⟨hout, hpos⟩ := hdoes
  cases hresult : findNextToken str m.startPos with
  | error e =>
      rw [hresult] at hout hpos
      have herror := findNextToken_raises hresult
      refine ⟨⟨by rw [hresult]; exact hout, by rw [hresult]; exact hpos⟩, fun w m' h => ?_,
        fun m' h => ?_, fun e' m' h => ?_⟩ <;> rw [h] at hout hpos
      · cases hout
      · cases hout
      · cases hout
        exact ⟨herror, hpos⟩
  | ok r =>
      rw [hresult] at hout hpos
      refine ⟨⟨by rw [hresult]; exact hout, by rw [hresult]; exact hpos⟩, fun w m' h => ?_,
        fun m' h => ?_, fun e' m' h => ?_⟩ <;> rw [h] at hout hpos
      · rcases r with _ | ⟨w', q⟩
        · cases hout
        · have hlt := findNextToken_progress hresult
          dsimp only at hpos
          omega
      · rcases r with _ | ⟨w', q⟩
        · exact hpos
        · cases hout
      · cases hout

/-- The loops of `next` on a line, in the reader `r`, from any position in the line on: a
number of iterations that is not smaller than the number of bytes left is enough. -/
structure LoopsEnd (num : Numbers) (line : ByteString) (r : InitDataFileReader) : Prop where
  columns : ∀ n p typid typparam, p ≤ line.length → line.length ≤ p + n →
    readColumns num line n p typid typparam ≠ .error .diverges
  values : ∀ n p data, p ≤ line.length → line.length ≤ p + n →
    (readValues line n p data r).1 ≠ .error .diverges

/-- The tokenizer makes progress within its bounds: every call on every line, at every
position and with anything in `parse_buf`, and so the loops of every call of `next` on
every file. -/
theorem tokenizer_bounded (num : Numbers) (others : BuiltinTable) :
    (∀ str m, CallBounded str m) ∧
      ∀ input lineno tabid n line, LoopsEnd num line
        (afterCalls num (findBuiltinFunction num others) n (construct input lineno tabid)) := by
  refine ⟨callBounded, fun input lineno tabid n line => ⟨?_, ?_⟩⟩
  · intro n' p typid typparam hp hn
    exact readColumns_ends hp hn typid typparam
  · intro n' p data hp hn
    exact readValues_ends (infuncsRaise_afterCalls input lineno tabid n) hp hn data

end InitDataFileReader

end Taco
