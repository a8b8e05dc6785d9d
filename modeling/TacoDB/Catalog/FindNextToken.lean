import TacoDB.Data.Quoting
import TacoDB.Data.Slice
import TacoDB.Base.Core

/-!
# The tokens of a line of `init.dat`

`InitDataFileReader::FindNextToken`. A token is a run of bytes up to the next space, or a
quoted string. A quoted string is a slice of the line as long as nothing is escaped in it;
from the first escape on it is copied to `parse_buf`, which has room for `parse_limit`
bytes.

The result is the token, as its bytes are when the function returns, and the new value of
`start_pos`; `none` is the null `string_view`, with which `start_pos` stays the same.
-/

namespace Taco

open Buffer Quoting

def charSpace : Byte := 0x20

def charQuote : Byte := 0x22

def charBackslash : Byte := 0x5C

def parseLimit : Nat := 4096

namespace InitDataFileReader

def afterQuote (str : ByteString) (i : Nat) : Option Nat :=
  match str[i + 1]? with
  | none => some (i + 1)
  | some c => if c = charSpace then some (i + 2) else none

/-- The content of `parse_buf` at an escape at `i` in a token that begins at `s`: before the
first escape it is filled with the bytes in front of it. -/
def parseBufAt (str : ByteString) (s i : Nat) : Option ByteString → Option ByteString
  | some buf => some buf
  | none => if parseLimit ≤ i - s then none else some (slice str s (i - s))

/-- `parse_buf[bufi++] = c`. -/
def pushParseBuf (buf : ByteString) (c : Byte) : Option ByteString :=
  if parseLimit ≤ buf.length then none else some (buf ++ [c])

/-- The token so far: what has been copied, or the slice of the line. -/
def tokenSoFar (str : ByteString) (s i : Nat) (buf : Option ByteString) : ByteString :=
  buf.getD (slice str s (i - s))

/-- The loop over a quoted token that begins at `s`, from index `i` on; `buf` is the content
of `parse_buf` once the token is copied there. The number of iterations is bounded by the
first argument. Behind the loop stands `ASSERT(false)`. -/
def scanQuoted (str : ByteString) (s : Nat) :
    Nat → Nat → Option ByteString → Except Failure (Option (ByteString × Nat))
  | 0, _, _ => .error (.assertion "false")
  | n + 1, i, buf =>
    match str[i]? with
    | none => .error (.assertion "false")
    | some c =>
      if c = charQuote then
        .ok ((afterQuote str i).map fun pos => (tokenSoFar str s i buf, pos))
      else if c = charBackslash then
        match str[i + 1]? with
        | none => .ok none
        | some d =>
          if d ≠ charBackslash ∧ d ≠ charQuote then .ok none
          else
            match (parseBufAt str s i buf).bind (pushParseBuf · d) with
            | none => .ok none
            | some buf => scanQuoted str s n (i + 2) (some buf)
      else
        match buf with
        | none => scanQuoted str s n (i + 1) none
        | some buf =>
          match pushParseBuf buf c with
          | none => .ok none
          | some buf => scanQuoted str s n (i + 1) (some buf)

/-- The end of a token without quotes: the index of the next space from `i` on, or the
length of the line. The number of iterations is bounded by the first argument. -/
def plainEnd (str : ByteString) : Nat → Nat → Nat
  | 0, i => i
  | n + 1, i =>
    match str[i]? with
    | none => i
    | some c => if c = charSpace then i else plainEnd str n (i + 1)

def findNextToken (str : ByteString) (startPos : Nat) :
    Except Failure (Option (ByteString × Nat)) :=
  match str[startPos]? with
  | none => .ok none
  | some c =>
    if c = charQuote then
      scanQuoted str (startPos + 1) str.length (startPos + 1) none
    else
      let i := plainEnd str str.length (startPos + 1)
      .ok (some (slice str startPos (i - startPos), if i = str.length then i else i + 1))

/-- The tokens that calls of `FindNextToken` return one after another, until `start_pos` is
the length of the line or the null `string_view` is returned, which is `none`. The number of
calls is bounded by the first argument. -/
def tokensFrom (str : ByteString) : Nat → Nat → Except Failure (Option (List ByteString))
  | n, startPos =>
    if startPos = str.length then .ok (some [])
    else
      match n with
      | 0 => .error .diverges
      | n + 1 => do
          match ← findNextToken str startPos with
          | none => return none
          | some (token, pos) => return (← tokensFrom str n pos).map (token :: ·)

def tokens (str : ByteString) : Except Failure (Option (List ByteString)) :=
  tokensFrom str str.length 0

section Scan

variable {str : ByteString} {s i : Nat}

theorem getElem?_of_drop {c : Byte} {rest : ByteString} (h : str.drop i = c :: rest) :
    str[i]? = some c ∧ str.drop (i + 1) = rest ∧ i + 1 + rest.length = str.length := by
  have hlen := congrArg List.length h
  rw [List.length_drop, List.length_cons] at hlen
  refine ⟨?_, ?_, by omega⟩
  · rw [← List.head?_drop, h, List.head?_cons]
  · rw [← List.drop_drop, h, List.drop_one, List.tail_cons]

/-- `start_pos` behind a token that is followed by `rest`: there is nothing, or a space. -/
def posAfter (str rest : ByteString) : Option Nat :=
  match rest with
  | [] => some str.length
  | c :: rest => if c = charSpace then some (str.length - rest.length) else none

theorem afterQuote_eq {rest : ByteString} (h : str.drop i = charQuote :: rest) :
    afterQuote str i = posAfter str rest := by
  obtain ⟨-, hrest, hlen⟩ := getElem?_of_drop h
  unfold afterQuote
  cases rest with
  | nil =>
      rw [List.length_nil] at hlen
      rw [List.getElem?_eq_none (by omega), posAfter, ← hlen]
  | cons c rest =>
      rw [List.length_cons] at hlen
      rw [(getElem?_of_drop hrest).1, posAfter, show i + 2 = str.length - rest.length by omega]

theorem slice_succ {c : Byte} (hs : s ≤ i) (hc : str[i]? = some c) :
    slice str s (i + 1 - s) = slice str s (i - s) ++ [c] := by
  rw [slice, slice, show i + 1 - s = i - s + 1 by omega, List.take_add_one, List.getElem?_drop,
    show s + (i - s) = i by omega, hc]
  rfl

/-- As long as nothing is escaped, the token is a slice of the line. -/
theorem scanQuoted_slice {w rest : ByteString} {n : Nat}
    (hw : ∀ c ∈ w, ¬ Special charQuote charBackslash c) (hs : s ≤ i)
    (h : str.drop i = w ++ charQuote :: rest) (hn : w.length < n) :
    scanQuoted str s n i none =
      .ok ((posAfter str rest).map fun pos => (slice str s (i - s) ++ w, pos)) := by
  induction w generalizing i n with
  | nil =>
      obtain ⟨n, rfl⟩ : ∃ m, n = m + 1 := ⟨n - 1, by omega⟩
      rw [List.nil_append] at h
      rw [scanQuoted, (getElem?_of_drop h).1]
      dsimp only
      rw [if_pos rfl, afterQuote_eq h, List.append_nil]
      rfl
  | cons c w ih =>
      obtain ⟨n, rfl⟩ : ∃ m, n = m + 1 := ⟨n - 1, by omega⟩
      rw [List.cons_append] at h
      obtain ⟨hget, hdrop, -⟩ := getElem?_of_drop h
      have hc := hw c List.mem_cons_self
      rw [List.length_cons] at hn
      rw [scanQuoted, hget]
      dsimp only
      rw [if_neg fun hq => hc (Or.inl hq), if_neg fun hb => hc (Or.inr hb),
        ih (fun d hd => hw d (List.mem_cons_of_mem _ hd)) (by omega) hdrop (by omega),
        slice_succ hs hget, List.append_assoc]
      rfl

theorem quote_ne_backslash : charBackslash ≠ charQuote := by decide

/-- `parse_buf` at an escape is the token so far, unless that is too long. -/
theorem parseBufAt_eq (hi : i ≤ str.length) (hs : s ≤ i) (buf : Option ByteString) :
    parseBufAt str s i buf = some (tokenSoFar str s i buf) ∨
      (parseBufAt str s i buf = none ∧ parseLimit ≤ (tokenSoFar str s i buf).length) := by
  cases buf with
  | some buf => exact Or.inl rfl
  | none =>
      have hlen : (tokenSoFar str s i none).length = i - s := length_slice (by omega)
      rw [parseBufAt, hlen]
      by_cases hlim : parseLimit ≤ i - s
      · exact Or.inr ⟨if_pos hlim, hlim⟩
      · exact Or.inl (if_neg hlim)

theorem pushParseBuf_eq (buf : ByteString) (c : Byte) :
    (pushParseBuf buf c = some (buf ++ [c]) ∧ (buf ++ [c]).length ≤ parseLimit) ∨
      (pushParseBuf buf c = none ∧ parseLimit ≤ buf.length) := by
  unfold pushParseBuf
  by_cases hlim : parseLimit ≤ buf.length
  · exact Or.inr ⟨if_pos hlim, hlim⟩
  · refine Or.inl ⟨if_neg hlim, ?_⟩
    rw [List.length_append, List.length_singleton]
    omega

def BufFits (buf : Option ByteString) : Prop := ∀ b, buf = some b → b.length ≤ parseLimit

theorem bufFits_none : BufFits none := nofun

section Step

variable {buf : Option ByteString} {n : Nat} {c d : Byte} {tail : ByteString}

theorem scanQuoted_quote (h : str.drop i = charQuote :: tail) :
    scanQuoted str s (n + 1) i buf =
      .ok ((posAfter str tail).map fun pos => (tokenSoFar str s i buf, pos)) := by
  rw [scanQuoted, (getElem?_of_drop h).1]
  dsimp only
  rw [if_pos rfl, afterQuote_eq h]

/-- One iteration at a byte that is not special: it becomes part of the token, unless
`parse_buf` is full. -/
theorem scanQuoted_plain (hs : s ≤ i) (h : str.drop i = c :: tail)
    (hc : ¬ Special charQuote charBackslash c) :
    (∃ buf', scanQuoted str s (n + 1) i buf = scanQuoted str s n (i + 1) buf' ∧
      tokenSoFar str s (i + 1) buf' = tokenSoFar str s i buf ++ [c] ∧
      BufFits buf' ∧ (buf' = none → buf = none)) ∨
    (scanQuoted str s (n + 1) i buf = .ok none ∧ parseLimit ≤ (tokenSoFar str s i buf).length) := by
  have hget := (getElem?_of_drop h).1
  rw [scanQuoted, hget]
  dsimp only
  rw [if_neg fun hq => hc (Or.inl hq), if_neg fun hb => hc (Or.inr hb)]
  cases buf with
  | none => exact Or.inl ⟨none, rfl, slice_succ hs hget, nofun, id⟩
  | some buf =>
      dsimp only
      rcases pushParseBuf_eq buf c with ⟨hpush, hfits⟩ | ⟨hpush, hlim⟩
      · rw [hpush]
        exact Or.inl ⟨some (buf ++ [c]), rfl, rfl, fun b hb => Option.some.inj hb ▸ hfits, nofun⟩
      · rw [hpush]
        exact Or.inr ⟨rfl, hlim⟩

theorem scanQuoted_escape (hs : s ≤ i) (h : str.drop i = charBackslash :: d :: tail)
    (hd : Special charQuote charBackslash d) :
    (∃ buf', scanQuoted str s (n + 1) i buf = scanQuoted str s n (i + 2) buf' ∧
      tokenSoFar str s (i + 2) buf' = tokenSoFar str s i buf ++ [d] ∧
      BufFits buf' ∧ buf' ≠ none) ∨
    (scanQuoted str s (n + 1) i buf = .ok none ∧ parseLimit ≤ (tokenSoFar str s i buf).length) := by
  obtain ⟨hget, htail, hlen⟩ := getElem?_of_drop h
  have hi : i ≤ str.length := by omega
  have hneg : ¬ (d ≠ charBackslash ∧ d ≠ charQuote) := by
    rintro ⟨hd₁, hd₂⟩
    exact hd.elim hd₂ hd₁
  rw [scanQuoted, hget]
  dsimp only
  rw [if_neg quote_ne_backslash, if_pos rfl, (getElem?_of_drop htail).1]
  dsimp only
  rw [if_neg hneg]
  rcases parseBufAt_eq hi hs buf with hbuf | ⟨hbuf, hlim⟩
  · rw [hbuf, Option.bind_some]
    rcases pushParseBuf_eq (tokenSoFar str s i buf) d with ⟨hpush, hfits⟩ | ⟨hpush, hlim⟩
    · rw [hpush]
      exact Or.inl ⟨some (tokenSoFar str s i buf ++ [d]), rfl, rfl,
        fun b hb => Option.some.inj hb ▸ hfits, nofun⟩
    · rw [hpush]
      exact Or.inr ⟨rfl, hlim⟩
  · rw [hbuf]
    exact Or.inr ⟨rfl, hlim⟩

theorem scanQuoted_bad (h : str.drop i = charBackslash :: tail)
    (hbad : ∀ d tail', tail = d :: tail' → ¬ Special charQuote charBackslash d) :
    scanQuoted str s (n + 1) i buf = .ok none := by
  obtain ⟨hget, htail, hlen⟩ := getElem?_of_drop h
  rw [scanQuoted, hget]
  dsimp only
  rw [if_neg quote_ne_backslash, if_pos rfl]
  cases tail with
  | nil =>
      rw [List.length_nil] at hlen
      rw [List.getElem?_eq_none (by omega)]
  | cons d tail =>
      have hd := hbad d tail rfl
      rw [(getElem?_of_drop htail).1]
      dsimp only
      rw [if_pos ⟨fun h => hd (Or.inr h), fun h => hd (Or.inl h)⟩]

end Step

/-- A quoted string that fits the buffer is read as it has to be. -/
theorem scanQuoted_read {w rest : ByteString} {buf : Option ByteString} {n : Nat} (hs : s ≤ i)
    (h : readQuoted charQuote charBackslash (str.drop i) = some (w, rest))
    (hlim : (tokenSoFar str s i buf ++ w).length ≤ parseLimit) (hn : str.length < i + n) :
    scanQuoted str s n i buf =
      .ok ((posAfter str rest).map fun pos => (tokenSoFar str s i buf ++ w, pos)) := by
  induction n generalizing i buf w with
  | zero =>
      rw [List.drop_of_length_le (by omega)] at h
      cases h
  | succ n ih =>
      cases hdrop : str.drop i with
      | nil =>
          rw [hdrop] at h
          cases h
      | cons c tail =>
          rw [hdrop] at h
          by_cases hq : c = charQuote
          · rw [hq] at hdrop h
            rw [readQuoted_quote] at h
            cases h
            rw [scanQuoted_quote hdrop, List.append_nil]
          by_cases hb : c = charBackslash
          · rw [hb] at hdrop h
            cases tail with
            | nil => cases h
            | cons d tail =>
                by_cases hd : Special charQuote charBackslash d
                · rw [readQuoted_escaped quote_ne_backslash hd] at h
                  obtain ⟨⟨w', rest'⟩, hread, hpair⟩ := Option.map_eq_some_iff.mp h
                  cases hpair
                  have htail' := (getElem?_of_drop (getElem?_of_drop hdrop).2.1).2.1
                  rw [← htail'] at hread
                  rcases scanQuoted_escape hs hdrop hd with ⟨buf', hstep, hsoFar, -⟩ | ⟨-, hfull⟩
                  · have happend : tokenSoFar str s (i + 2) buf' ++ w' =
                        tokenSoFar str s i buf ++ d :: w' := by
                      rw [hsoFar, List.append_assoc]
                      rfl
                    rw [hstep, ih (by omega) hread (by rw [happend]; exact hlim) (by omega), happend]
                  · rw [List.length_append, List.length_cons] at hlim
                    omega
                · rw [readQuoted_bad quote_ne_backslash hd] at h
                  cases h
          · have hc : ¬ Special charQuote charBackslash c := fun hc => hc.elim hq hb
            rw [readQuoted_plain hc] at h
            obtain ⟨⟨w', rest'⟩, hread, hpair⟩ := Option.map_eq_some_iff.mp h
            cases hpair
            rw [← (getElem?_of_drop hdrop).2.1] at hread
            rcases scanQuoted_plain hs hdrop hc with ⟨buf', hstep, hsoFar, -⟩ | ⟨-, hfull⟩
            · have happend : tokenSoFar str s (i + 1) buf' ++ w' =
                  tokenSoFar str s i buf ++ c :: w' := by
                rw [hsoFar, List.append_assoc]
                rfl
              rw [hstep, ih (by omega) hread (by rw [happend]; exact hlim) (by omega), happend]
            · rw [List.length_append, List.length_cons] at hlim
              omega

theorem scanQuoted_some {w : ByteString} {pos : Nat} {buf : Option ByteString} {n : Nat}
    (hs : s ≤ i) (h : scanQuoted str s n i buf = .ok (some (w, pos))) :
    ∃ r, readQuoted charQuote charBackslash (str.drop i) = some r ∧
      w = tokenSoFar str s i buf ++ r.1 ∧ posAfter str r.2 = some pos := by
  induction n generalizing i buf with
  | zero => cases h
  | succ n ih =>
      cases hdrop : str.drop i with
      | nil =>
          rw [scanQuoted, ← List.head?_drop, hdrop] at h
          cases h
      | cons c tail =>
          by_cases hq : c = charQuote
          · rw [hq] at hdrop ⊢
            rw [scanQuoted_quote hdrop] at h
            obtain ⟨pos', hpos, hpair⟩ := Option.map_eq_some_iff.mp (Except.ok.inj h)
            cases hpair
            exact ⟨_, readQuoted_quote tail, (List.append_nil _).symm, hpos⟩
          by_cases hb : c = charBackslash
          · rw [hb] at hdrop ⊢
            by_cases hbad : ∀ d tail', tail = d :: tail' → ¬ Special charQuote charBackslash d
            · rw [scanQuoted_bad hdrop hbad] at h
              cases h
            · push Not at hbad
              obtain ⟨d, tail', rfl, hd⟩ := hbad
              have htail' := (getElem?_of_drop (getElem?_of_drop hdrop).2.1).2.1
              rcases scanQuoted_escape hs hdrop hd with ⟨buf', hstep, hsoFar, -⟩ | ⟨hstep, -⟩
              · rw [hstep] at h
                obtain ⟨r, hread, hw, hpos⟩ := ih (by omega) h
                rw [htail'] at hread
                refine ⟨(d :: r.1, r.2), ?_, ?_, hpos⟩
                · rw [readQuoted_escaped quote_ne_backslash hd, hread]
                  rfl
                · rw [hw, hsoFar, List.append_assoc]
                  rfl
              · rw [hstep] at h
                cases h
          · have hc : ¬ Special charQuote charBackslash c := fun hc => hc.elim hq hb
            rcases scanQuoted_plain hs hdrop hc with ⟨buf', hstep, hsoFar, -⟩ | ⟨hstep, -⟩
            · rw [hstep] at h
              obtain ⟨r, hread, hw, hpos⟩ := ih (by omega) h
              rw [(getElem?_of_drop hdrop).2.1] at hread
              refine ⟨(c :: r.1, r.2), ?_, ?_, hpos⟩
              · rw [readQuoted_plain hc, hread]
                rfl
              · rw [hw, hsoFar, List.append_assoc]
                rfl
            · rw [hstep] at h
              cases h

/-- The loop ends in its `ASSERT(false)` only on a string that is never closed, and that fits
the buffer as far as it is copied there. -/
theorem scanQuoted_error {e : Failure} {buf : Option ByteString} {n : Nat} (hs : s ≤ i)
    (hn : str.length < i + n) (hbuf : BufFits buf)
    (h : scanQuoted str s n i buf = .error e) :
    ∃ w, readOpen charQuote charBackslash (str.drop i) = some w ∧
      ((buf = none ∧ charBackslash ∉ str.drop i) ∨
        (tokenSoFar str s i buf ++ w).length ≤ parseLimit) := by
  induction n generalizing i buf with
  | zero =>
      have hnil : str.drop i = [] := List.drop_of_length_le (by omega)
      rw [hnil]
      refine ⟨[], rfl, ?_⟩
      cases buf with
      | none => exact Or.inl ⟨rfl, List.not_mem_nil⟩
      | some b => exact Or.inr (by rw [List.append_nil]; exact hbuf b rfl)
  | succ n ih =>
      cases hdrop : str.drop i with
      | nil =>
          refine ⟨[], rfl, ?_⟩
          cases buf with
          | none => exact Or.inl ⟨rfl, List.not_mem_nil⟩
          | some b => exact Or.inr (by rw [List.append_nil]; exact hbuf b rfl)
      | cons c tail =>
          by_cases hq : c = charQuote
          · rw [hq] at hdrop
            rw [scanQuoted_quote hdrop] at h
            cases h
          by_cases hb : c = charBackslash
          · rw [hb] at hdrop ⊢
            by_cases hbad : ∀ d tail', tail = d :: tail' → ¬ Special charQuote charBackslash d
            · rw [scanQuoted_bad hdrop hbad] at h
              cases h
            · push Not at hbad
              obtain ⟨d, tail', rfl, hd⟩ := hbad
              have htail' := (getElem?_of_drop (getElem?_of_drop hdrop).2.1).2.1
              rcases scanQuoted_escape hs hdrop hd with ⟨buf', hstep, hsoFar, hfits, hsome⟩ | ⟨hstep, -⟩
              · rw [hstep] at h
                obtain ⟨w, hread, hlim⟩ := ih (by omega) (by omega) hfits h
                rw [htail'] at hread
                refine ⟨d :: w, ?_, Or.inr ?_⟩
                · rw [readOpen_escaped quote_ne_backslash hd, hread]
                  rfl
                · have hlim' := hlim.resolve_left fun hnone => hsome hnone.1
                  rwa [hsoFar, List.append_assoc] at hlim'
              · rw [hstep] at h
                cases h
          · have hc : ¬ Special charQuote charBackslash c := fun hc => hc.elim hq hb
            rcases scanQuoted_plain hs hdrop hc with ⟨buf', hstep, hsoFar, hfits, hnone⟩ | ⟨hstep, -⟩
            · rw [hstep] at h
              obtain ⟨w, hread, hlim⟩ := ih (by omega) (by omega) hfits h
              rw [(getElem?_of_drop hdrop).2.1] at hread hlim
              refine ⟨c :: w, by rw [readOpen_plain hc, hread]; rfl, ?_⟩
              rcases hlim with ⟨hnone', hmem⟩ | hlim
              · refine Or.inl ⟨hnone hnone', ?_⟩
                rw [List.mem_cons, not_or]
                exact ⟨fun h => hb h.symm, hmem⟩
              · refine Or.inr ?_
                rwa [hsoFar, List.append_assoc] at hlim
            · rw [hstep] at h
              cases h

theorem plainEnd_eq {w rest : ByteString} {n : Nat} (hw : charSpace ∉ w)
    (h : str.drop i = w ++ rest) (hrest : rest = [] ∨ rest.head? = some charSpace)
    (hn : w.length ≤ n) : plainEnd str n i = i + w.length := by
  induction w generalizing i n with
  | nil =>
      rw [List.nil_append] at h
      cases n with
      | zero => rfl
      | succ n =>
          rw [plainEnd, ← List.head?_drop, h]
          rcases hrest with rfl | hspace
          · rfl
          · rw [hspace]
            rfl
  | cons c w ih =>
      obtain ⟨n, rfl⟩ : ∃ m, n = m + 1 := ⟨n - 1, by rw [List.length_cons] at hn; omega⟩
      rw [List.cons_append] at h
      obtain ⟨hget, htail, -⟩ := getElem?_of_drop h
      have hc : c ≠ charSpace := fun hc => hw (hc ▸ List.mem_cons_self)
      rw [List.length_cons] at hn
      rw [plainEnd, hget]
      dsimp only
      rw [if_neg hc, ih (fun hmem => hw (List.mem_cons_of_mem _ hmem)) htail (by omega),
        List.length_cons]
      omega

end Scan

def Delimited (rest : ByteString) : Prop := rest = [] ∨ ∃ rest', rest = charSpace :: rest'

section Token

variable {str w rest : ByteString} {p : Nat}

theorem slice_of_drop (h : str.drop p = w ++ rest) : slice str p w.length = w := by
  rw [slice, h, List.take_left]

theorem findNextToken_plain (hne : w ≠ []) (hquote : w.head? ≠ some charQuote)
    (hspace : charSpace ∉ w) (h : str.drop p = w ++ rest) (hrest : Delimited rest) :
    findNextToken str p = .ok ((posAfter str rest).map fun pos => (w, pos)) := by
  cases w with
  | nil => exact absurd rfl hne
  | cons c w =>
      have hslice := slice_of_drop h
      rw [List.cons_append] at h
      obtain ⟨hget, htail, hlen⟩ := getElem?_of_drop h
      have hc : c ≠ charQuote := fun hc => hquote (congrArg some hc)
      rw [List.length_append] at hlen
      have hend : plainEnd str str.length (p + 1) = p + 1 + w.length := by
        refine plainEnd_eq (fun hmem => hspace (List.mem_cons_of_mem _ hmem)) htail ?_ (by omega)
        rcases hrest with rfl | ⟨rest', rfl⟩
        · exact Or.inl rfl
        · exact Or.inr rfl
      rw [List.length_cons] at hslice
      unfold findNextToken
      rw [hget]
      dsimp only
      rw [if_neg hc, hend, show p + 1 + w.length - p = w.length + 1 by omega, hslice]
      rcases hrest with rfl | ⟨rest', rfl⟩
      · rw [List.length_nil] at hlen
        rw [if_pos (by omega), posAfter, show p + 1 + w.length = str.length by omega]
        rfl
      · rw [List.length_cons] at hlen
        rw [if_neg (by omega), posAfter, if_pos rfl,
          show p + 1 + w.length + 1 = str.length - rest'.length by omega]
        rfl

/-- A quote at `p` opens a string that is never closed. As far as it is copied to `parse_buf`
it fits there. -/
def OpenQuote (str : ByteString) (p : Nat) : Prop :=
  str[p]? = some charQuote ∧ ∃ w,
    readOpen charQuote charBackslash (str.drop (p + 1)) = some w ∧
      (charBackslash ∉ str.drop (p + 1) ∨ w.length ≤ parseLimit)

/-- `FindNextToken` returns unless a quote stays open. -/
theorem findNextToken_of_not_openQuote (h : ¬ OpenQuote str p) :
    ∃ r, findNextToken str p = .ok r := by
  cases hget : str[p]? with
  | none => exact ⟨none, by rw [findNextToken, hget]⟩
  | some c =>
      have hlt := (List.getElem?_eq_some_iff.mp hget).1
      rw [findNextToken, hget]
      dsimp only
      by_cases hc : c = charQuote
      · rw [if_pos hc]
        cases hscan : scanQuoted str (p + 1) str.length (p + 1) none with
        | ok r => exact ⟨r, rfl⟩
        | error e =>
            obtain ⟨w, hw, hlim⟩ := scanQuoted_error (Nat.le_refl _) (by omega)
              bufFits_none hscan
            refine absurd ⟨hc ▸ hget, w, hw, ?_⟩ h
            have hnil : tokenSoFar str (p + 1) (p + 1) none = [] := by
              rw [tokenSoFar, Nat.sub_self, slice]
              rfl
            rw [hnil, List.nil_append] at hlim
            exact hlim.imp_left And.right
      · rw [if_neg hc]
        exact ⟨_, rfl⟩

theorem plainEnd_bounds (n i : Nat) (hi : i ≤ str.length) :
    i ≤ plainEnd str n i ∧ plainEnd str n i ≤ str.length := by
  induction n generalizing i with
  | zero => exact ⟨Nat.le_refl _, hi⟩
  | succ n ih =>
      rw [plainEnd]
      cases hget : str[i]? with
      | none => exact ⟨Nat.le_refl _, hi⟩
      | some c =>
          have hlt := (List.getElem?_eq_some_iff.mp hget).1
          dsimp only
          split
          · exact ⟨Nat.le_refl _, hi⟩
          · have := ih (i + 1) hlt
            omega

theorem findNextToken_progress {q : Nat} (h : findNextToken str p = .ok (some (w, q))) :
    p < q ∧ q ≤ str.length := by
  unfold findNextToken at h
  cases hget : str[p]? with
  | none =>
      rw [hget] at h
      cases h
  | some c =>
      have hlt := (List.getElem?_eq_some_iff.mp hget).1
      rw [hget] at h
      dsimp only at h
      by_cases hc : c = charQuote
      · rw [if_pos hc] at h
        obtain ⟨r, hread, -, hpos⟩ := scanQuoted_some (Nat.le_refl _) h
        have hlen := length_of_readQuoted hread
        rw [List.length_drop] at hlen
        unfold posAfter at hpos
        split at hpos
        · have := Option.some.inj hpos
          omega
        · split at hpos
          · have := Option.some.inj hpos
            rename_i hrest _
            rw [hrest, List.length_cons] at hlen
            omega
          · cases hpos
      · rw [if_neg hc] at h
        have hbounds : p + 1 ≤ plainEnd str str.length (p + 1) ∧ _ :=
          plainEnd_bounds str.length (p + 1) hlt
        have hq := (Prod.mk.inj (Option.some.inj (Except.ok.inj h))).2
        split at hq <;> omega

theorem findNextToken_raw (hw : ∀ c ∈ w, ¬ Special charQuote charBackslash c)
    (h : str.drop p = charQuote :: (w ++ charQuote :: rest)) :
    findNextToken str p = .ok ((posAfter str rest).map fun pos => (w, pos)) := by
  obtain ⟨hget, htail, hlen⟩ := getElem?_of_drop h
  rw [List.length_append, List.length_cons] at hlen
  unfold findNextToken
  rw [hget]
  dsimp only
  rw [if_pos rfl, scanQuoted_slice hw le_rfl htail (by omega), Nat.sub_self, slice, List.take_zero,
    List.nil_append]

theorem findNextToken_escaped (hlim : w.length ≤ parseLimit)
    (h : str.drop p = charQuote :: (escape charQuote charBackslash w ++ charQuote :: rest)) :
    findNextToken str p = .ok ((posAfter str rest).map fun pos => (w, pos)) := by
  obtain ⟨hget, htail, hlen⟩ := getElem?_of_drop h
  have hread := readQuoted_escape quote_ne_backslash w rest
  rw [← htail] at hread
  have hsoFar : tokenSoFar str (p + 1) (p + 1) none = [] := by
    rw [tokenSoFar, Option.getD_none, Nat.sub_self, slice, List.take_zero]
  unfold findNextToken
  rw [hget]
  dsimp only
  rw [if_pos rfl, scanQuoted_read le_rfl hread (by rw [hsoFar]; exact hlim) (by omega), hsoFar,
    List.nil_append]

end Token

structure Token where
  quoted : Bool
  content : ByteString

namespace Token

/-- The text of a token: its content, or its content between quotes with every special byte
escaped. -/
def render (tok : Token) : ByteString :=
  if tok.quoted then
    charQuote :: (escape charQuote charBackslash tok.content ++ [charQuote])
  else tok.content

/-- The token can be written so: without quotes it is not empty, has no space and does not
begin with a quote, and with quotes it fits the buffer if something is escaped in it. -/
def Renderable (tok : Token) : Prop :=
  if tok.quoted then
    (∃ c ∈ tok.content, Special charQuote charBackslash c) → tok.content.length ≤ parseLimit
  else tok.content ≠ [] ∧ charSpace ∉ tok.content ∧ tok.content.head? ≠ some charQuote

def line (toks : List Token) : ByteString := List.intercalate [charSpace] (toks.map render)

theorem findNextToken_render {tok : Token} (htok : tok.Renderable) {str rest : ByteString}
    {p : Nat} (h : str.drop p = tok.render ++ rest) (hrest : Delimited rest) :
    findNextToken str p = .ok ((posAfter str rest).map fun pos => (tok.content, pos)) := by
  unfold Renderable at htok
  unfold render at h
  cases hquoted : tok.quoted with
  | false =>
      simp only [hquoted, Bool.false_eq_true, if_false] at h htok
      exact findNextToken_plain htok.1 htok.2.2 htok.2.1 h hrest
  | true =>
      simp only [hquoted, if_true] at h htok
      rw [List.cons_append, List.append_assoc] at h
      by_cases hspecial : ∃ c ∈ tok.content, Special charQuote charBackslash c
      · exact findNextToken_escaped (htok hspecial) h
      · push Not at hspecial
        rw [escape_eq_self hspecial] at h
        exact findNextToken_raw hspecial h

theorem render_ne_nil {tok : Token} (htok : tok.Renderable) : tok.render ≠ [] := by
  unfold Renderable at htok
  unfold render
  cases hquoted : tok.quoted with
  | false =>
      simp only [hquoted, Bool.false_eq_true, if_false] at htok ⊢
      exact htok.1
  | true => exact List.cons_ne_nil _ _

theorem tokensFrom_end (str : ByteString) (n : Nat) :
    tokensFrom str n str.length = .ok (some []) := by
  cases n with
  | zero => rw [tokensFrom, if_pos rfl]
  | succ n => rw [tokensFrom, if_pos rfl]

theorem tokensFrom_cons {tok : Token} (htok : tok.Renderable) {str rest : ByteString} {p n : Nat}
    (h : str.drop p = tok.render ++ charSpace :: rest) :
    str.drop (str.length - rest.length) = rest ∧
      tokensFrom str (n + 1) p =
        (tokensFrom str n (str.length - rest.length)).map (Option.map (tok.content :: ·)) := by
  have hlen := congrArg List.length h
  rw [List.length_drop, List.length_append, List.length_cons] at hlen
  constructor
  · have hsplit : str.drop p = (tok.render ++ [charSpace]) ++ rest := by
      rw [h, List.append_assoc]
      rfl
    rw [show str.length - rest.length = p + (tok.render ++ [charSpace]).length by
      rw [List.length_append, List.length_singleton]
      omega, ← List.drop_drop, hsplit, List.drop_left]
  · rw [tokensFrom, if_neg (by omega), findNextToken_render htok h (Or.inr ⟨rest, rfl⟩), posAfter, if_pos rfl]
    change (tokensFrom str n (str.length - rest.length) >>= fun r => pure (r.map (tok.content :: ·))) = _
    cases tokensFrom str n (str.length - rest.length) with
    | error e => rfl
    | ok r => rfl

theorem tokensFrom_last {tok : Token} (htok : tok.Renderable) {str : ByteString} {p n : Nat}
    (h : str.drop p = tok.render) : tokensFrom str (n + 1) p = .ok (some [tok.content]) := by
  have hlen := congrArg List.length h
  have hpos := List.length_pos_iff.mpr (render_ne_nil htok)
  rw [List.length_drop] at hlen
  have hrender : str.drop p = tok.render ++ [] := by rw [h, List.append_nil]
  rw [tokensFrom, if_neg (by omega), findNextToken_render htok hrender (Or.inl rfl)]
  change (tokensFrom str n str.length >>= fun r => pure (r.map (tok.content :: ·))) = _
  rw [tokensFrom_end]
  rfl

theorem line_cons_cons (tok tok' : Token) (toks : List Token) :
    line (tok :: tok' :: toks) = tok.render ++ charSpace :: line (tok' :: toks) := by
  rw [line, List.map_cons, List.map_cons, List.intercalate_cons_cons, List.append_assoc]
  rfl

theorem tokensFrom_line {toks : List Token} (hne : toks ≠ [])
    (htoks : ∀ tok ∈ toks, tok.Renderable) {str : ByteString} {p n : Nat}
    (h : str.drop p = line toks) (hn : toks.length ≤ n) :
    tokensFrom str n p = .ok (some (toks.map content)) := by
  induction toks generalizing p n with
  | nil => exact absurd rfl hne
  | cons tok toks ih =>
      obtain ⟨n, rfl⟩ : ∃ m, n = m + 1 := ⟨n - 1, by rw [List.length_cons] at hn; omega⟩
      have htok := htoks tok List.mem_cons_self
      rw [List.length_cons] at hn
      cases toks with
      | nil =>
          rw [line, List.map_cons, List.map_nil, List.intercalate_singleton] at h
          exact tokensFrom_last htok h
      | cons tok' toks =>
          rw [line_cons_cons] at h
          obtain ⟨hdrop, hstep⟩ := tokensFrom_cons htok h
          rw [hstep, ih (List.cons_ne_nil _ _)
            (fun t ht => htoks t (List.mem_cons_of_mem _ ht)) hdrop (by omega)]
          rfl

theorem length_le_line {toks : List Token} (htoks : ∀ tok ∈ toks, tok.Renderable) :
    toks.length ≤ (line toks).length := by
  induction toks with
  | nil => exact Nat.zero_le _
  | cons tok toks ih =>
      have hpos := List.length_pos_iff.mpr (render_ne_nil (htoks tok List.mem_cons_self))
      have ih' := ih fun t ht => htoks t (List.mem_cons_of_mem _ ht)
      cases toks with
      | nil =>
          rw [line, List.map_cons, List.map_nil, List.intercalate_singleton]
          exact hpos
      | cons tok' toks =>
          rw [line_cons_cons]
          simp only [List.length_append, List.length_cons] at ih' ⊢
          omega

end Token

/-- `FindNextToken` inverts the writing of tokens: called again and again on a line of
tokens joined by single spaces, it returns these tokens. -/
theorem tokens_line {toks : List Token} (hne : toks ≠ [])
    (htoks : ∀ tok ∈ toks, tok.Renderable) :
    tokens (Token.line toks) = .ok (some (toks.map Token.content)) :=
  Token.tokensFrom_line hne htoks rfl (Token.length_le_line htoks)

/-- A line with a word, a number and an escaped quote. -/
theorem tokens_line_sample :
    tokens (ascii "data 12 \"a \\\"b\"") =
      .ok (some [ascii "data", ascii "12", ascii "a \"b"]) := by
  have hline : ascii "data 12 \"a \\\"b\"" =
      Token.line [⟨false, ascii "data"⟩, ⟨false, ascii "12"⟩, ⟨true, ascii "a \"b"⟩] := by
    decide +kernel
  rw [hline]
  refine tokens_line (List.cons_ne_nil _ _) fun tok htok => ?_
  simp only [List.mem_cons, List.not_mem_nil, or_false] at htok
  rcases htok with rfl | rfl | rfl
  · exact ⟨by decide, by decide, by decide⟩
  · exact ⟨by decide, by decide, by decide⟩
  · exact fun _ => by decide

end InitDataFileReader

end Taco
