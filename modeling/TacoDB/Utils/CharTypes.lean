import TacoDB.Data.Padding
import TacoDB.Utils.Typsupp

/-!
# The types `CHAR` and `VARCHAR`

The casts between the two types and the equality of `CHAR`, beside their input
functions. Both input functions accept a string when it fits without its
trailing spaces. What they store differs in trailing spaces only, and neither
the casts nor the comparison see these. Allocations are taken to succeed.
-/

namespace Taco

open Padding

/-- The loop of `remove_trailing_space`. -/
def trailingSpaceLoop (s : ByteString) : Nat → Nat
  | 0 => 0
  | i + 1 => if s[i]? = some 0x20 then trailingSpaceLoop s i else i + 1

def removeTrailingSpace (s : ByteString) : ByteString := s.take (trailingSpaceLoop s s.length)

def castFunction (f : ByteString → Nat → ByteString) : FunctionInfo :=
  strictUnary fun d maxSize => .ok (.ofBytes (f d.getVarlenBytes maxSize))

def varcharToCharBytes (str : ByteString) (maxSize : Nat) : ByteString :=
  let maxSize' := if maxSize = 0 then str.length else maxSize
  let str' := if maxSize ≠ 0 ∧ str.length > maxSize then str.take maxSize else str
  str' ++ List.replicate (maxSize' - str'.length) 0x20

def varcharToChar : FunctionInfo := castFunction varcharToCharBytes

def charToVarcharBytes (str : ByteString) (maxSize : Nat) : ByteString :=
  let strTrunc := removeTrailingSpace str
  if maxSize ≠ 0 ∧ strTrunc.length > maxSize then strTrunc.take maxSize else strTrunc

def charToVarchar : FunctionInfo := castFunction charToVarcharBytes

def charEq : FunctionInfo :=
  strictBinary fun x y =>
    removeTrailingSpace x.getVarlenBytes = removeTrailingSpace y.getVarlenBytes

/-! ### Calls on strings -/

theorem getVarlenBytes_ofBytes {bytes : ByteString} (h : bytes.length < 2 ^ 32) :
    (Datum.ofBytes bytes).getVarlenBytes = bytes := by
  change bytes.take (bytes.length % 2 ^ 32) = bytes
  rw [Nat.mod_eq_of_lt h, List.take_length]

theorem ofBytes_congr {bytes bytes' : ByteString}
    (h : bytes.take (bytes.length % 2 ^ 32) = bytes'.take (bytes'.length % 2 ^ 32)) :
    Datum.ofBytes bytes = Datum.ofBytes bytes' := by
  unfold Datum.ofBytes
  simp only [h]

theorem strictUnary_of_notNull {f : Datum → Nat → Except Failure Datum} {d : Datum}
    (h : d.isnull = false) (n : Nat) : strictUnary f ⟨[d], n⟩ = f d n := by
  change (if d.isnull then _ else _) = _
  rw [h, if_neg Bool.false_ne_true]

theorem strictBinary_of_notNull {f : Datum → Datum → Bool} {d₀ d₁ : Datum}
    (h₀ : d₀.isnull = false) (h₁ : d₁.isnull = false) (n : Nat) :
    strictBinary f ⟨[d₀, d₁], n⟩ = .ok (.ofBool (f d₀ d₁)) := by
  change (if d₀.isnull || d₁.isnull then _ else _) = _
  rw [h₀, h₁, if_neg (by decide)]
  rfl

/-! ### The loops -/

variable {s : ByteString} {n : Nat}

/-- The loop stops at the size of the trimmed string, or earlier at the maximum. -/
theorem trimmedSize_eq (n : Nat) {size : Nat} (h : size ≤ s.length) :
    trimmedSize s n size = max (min n size) (trimmed 0x20 (s.take size)).length := by
  induction size with
  | zero =>
      rw [Nat.min_zero, Nat.zero_max]
      rfl
  | succ size ih =>
      have hlt : size < s.length := h
      rw [trimmedSize, List.take_succ_eq_append_getElem hlt, List.getElem?_eq_getElem hlt]
      have hle := length_trimmed_le 0x20 (s.take size)
      rw [List.length_take] at hle
      by_cases hspace : s[size] = 0x20
      · rw [hspace, trimmed_concat_blank]
        by_cases hn : size + 1 > n
        · rw [if_pos ⟨hn, rfl⟩, ih (by omega)]
          omega
        · rw [if_neg fun hc => hn hc.1]
          omega
      · rw [if_neg fun hc => hspace (Option.some.inj hc.2), trimmed_concat_of_ne hspace,
          List.length_append, List.length_take, List.length_singleton]
        omega

theorem trimmedSize_length (s : ByteString) (n : Nat) :
    trimmedSize s n s.length = max (min n s.length) (trimmed 0x20 s).length := by
  rw [trimmedSize_eq n le_rfl, List.take_length]

theorem trailingSpaceLoop_eq (s : ByteString) (i : Nat) :
    trailingSpaceLoop s i = trimmedSize s 0 i := by
  induction i with
  | zero => rfl
  | succ i ih =>
      rw [trailingSpaceLoop, trimmedSize, ih]
      simp only [gt_iff_lt, Nat.zero_lt_succ, true_and]

theorem removeTrailingSpace_eq (s : ByteString) : removeTrailingSpace s = trimmed 0x20 s := by
  unfold removeTrailingSpace
  rw [trailingSpaceLoop_eq, trimmedSize_length, Nat.zero_min, Nat.zero_max]
  exact (List.prefix_iff_eq_take.mp (trimmed_prefix_self 0x20 s)).symm

/-! ### The input functions -/

/-- Both input functions accept the strings that fit without their trailing
spaces, and reject the others with the same message. -/
theorem varcharIn_eq {d : Datum} (hd : d.isnull = false) (n : Nat) :
    varcharIn ⟨[d], n⟩ =
      if (removeTrailingSpace d.getVarlenBytes).length ≤ n then
        .ok (.ofBytes (d.getVarlenBytes.take n))
      else
        .error (.tdbError .kError
          (tooLongMessage (removeTrailingSpace d.getVarlenBytes).length n)) := by
  unfold varcharIn
  rw [strictUnary_of_notNull hd]
  dsimp only
  rw [trimmedSize_length, removeTrailingSpace_eq]
  have hle := length_trimmed_le 0x20 d.getVarlenBytes
  by_cases h : (trimmed 0x20 d.getVarlenBytes).length ≤ n
  · rw [if_pos h, if_neg (by omega)]
    have hmax : max (min n d.getVarlenBytes.length) (trimmed 0x20 d.getVarlenBytes).length =
        min n d.getVarlenBytes.length := by omega
    rw [hmax, ← List.take_take, List.take_length]
  · have hmax : max (min n d.getVarlenBytes.length) (trimmed 0x20 d.getVarlenBytes).length =
        (trimmed 0x20 d.getVarlenBytes).length := by omega
    rw [if_neg h, hmax, if_pos (by omega)]

theorem charIn_eq {d : Datum} (hd : d.isnull = false) (n : Nat) :
    charIn ⟨[d], n⟩ =
      if (removeTrailingSpace d.getVarlenBytes).length ≤ n then
        .ok (.ofBytes ((d.getVarlenBytes.take n).rightpad n 0x20))
      else
        .error (.tdbError .kError
          (tooLongMessage (removeTrailingSpace d.getVarlenBytes).length n)) := by
  unfold charIn
  rw [strictUnary_of_notNull hd]
  dsimp only
  rw [trimmedSize_length, removeTrailingSpace_eq]
  have hle := length_trimmed_le 0x20 d.getVarlenBytes
  by_cases h : (trimmed 0x20 d.getVarlenBytes).length ≤ n
  · rw [if_pos h, if_neg (by omega)]
    have hmax : max (min n d.getVarlenBytes.length) (trimmed 0x20 d.getVarlenBytes).length =
        min n d.getVarlenBytes.length := by omega
    rw [hmax, ← List.take_take, List.take_length, List.rightpad, List.length_take]
  · have hmax : max (min n d.getVarlenBytes.length) (trimmed 0x20 d.getVarlenBytes).length =
        (trimmed 0x20 d.getVarlenBytes).length := by omega
    rw [if_neg h, hmax, if_pos (by omega)]

/-! ### The casts -/

theorem castFunction_eq {f : ByteString → Nat → ByteString} {d : Datum} (hd : d.isnull = false)
    (n : Nat) : castFunction f ⟨[d], n⟩ = .ok (.ofBytes (f d.getVarlenBytes n)) :=
  strictUnary_of_notNull hd n

theorem varcharToCharBytes_eq (h : s.length ≤ n) :
    varcharToCharBytes s n = s.rightpad n 0x20 := by
  unfold varcharToCharBytes List.rightpad
  dsimp only
  rw [if_neg (by omega : ¬(n ≠ 0 ∧ s.length > n))]
  split
  · rename_i hn
    subst hn
    rw [Nat.sub_self, Nat.zero_sub]
  · rfl

theorem charToVarcharBytes_zero (s : ByteString) :
    charToVarcharBytes s 0 = trimmed 0x20 s := by
  unfold charToVarcharBytes
  rw [removeTrailingSpace_eq, if_neg fun h => h.1 rfl]

/-- Removing the trailing spaces of a `CHAR` and padding it to its type parameter
again gives the `CHAR` back, whatever is left of the parameter in its size. -/
theorem ofBytes_rightpad_trimmed (h : s.length ≤ n) :
    Datum.ofBytes ((trimmed 0x20 (Datum.ofBytes (s.rightpad n 0x20)).getVarlenBytes).rightpad n
      0x20) = Datum.ofBytes (s.rightpad n 0x20) := by
  have hlen : (s.rightpad n 0x20).length = n := by
    rw [List.length_rightpad, Nat.max_eq_left h]
  have hbytes : (Datum.ofBytes (s.rightpad n 0x20)).getVarlenBytes =
      (s.rightpad n 0x20).take (n % 2 ^ 32) := by
    change List.take _ _ = _
    rw [hlen]
  have hcut : ((s.rightpad n 0x20).take (n % 2 ^ 32)).length = n % 2 ^ 32 := by
    rw [List.length_take, hlen]
    exact Nat.min_eq_left (Nat.mod_le _ _)
  have hmod : n % 2 ^ 32 ≤ n := Nat.mod_le _ _
  have htrim := length_trimmed_le 0x20 ((s.rightpad n 0x20).take (n % 2 ^ 32))
  have hback := trimmed_append 0x20 ((s.rightpad n 0x20).take (n % 2 ^ 32))
  rw [hcut] at htrim hback
  rw [hbytes]
  refine ofBytes_congr ?_
  rw [List.length_rightpad, Nat.max_eq_left (htrim.trans hmod), hlen, ← hback, List.rightpad,
    trimmed_append_replicate, trimmed_trimmed, List.take_append, List.take_of_length_le htrim,
    List.take_replicate]
  congr 2
  omega

/-! ### Coherence -/

theorem rejects_iff {out : Except Failure Datum} {c : Prop} [Decidable c] {d : Datum} {e : Failure}
    (h : out = if c then .ok d else .error e) : (∃ e', out = .error e') ↔ ¬ c := by
  rw [h]
  constructor
  · rintro ⟨e', he⟩ hc
    rw [if_pos hc] at he
    cases he
  · intro hc
    exact ⟨e, if_neg hc⟩

theorem bytes_padded (hn : n < 2 ^ 32) :
    (Datum.ofBytes ((s.take n).rightpad n 0x20)).getVarlenBytes = (s.take n).rightpad n 0x20 := by
  refine getVarlenBytes_ofBytes ?_
  rw [List.length_rightpad, Nat.max_eq_left (List.length_take_le n s)]
  exact hn

theorem trimmed_padded (hn : (trimmed 0x20 s).length ≤ n) :
    trimmed 0x20 ((s.take n).rightpad n 0x20) = trimmed 0x20 s := by
  rw [trimmed_rightpad, trimmed_take hn]

/-- A string in a `CHAR` of two sizes that take it is the same. -/
theorem charEq_padded {m : Nat} (hn : n < 2 ^ 32) (hm : m < 2 ^ 32)
    (hfit : (trimmed 0x20 s).length ≤ n) (hfit' : (trimmed 0x20 s).length ≤ m) :
    charEq ⟨[.ofBytes ((s.take n).rightpad n 0x20), .ofBytes ((s.take m).rightpad m 0x20)], 0⟩ =
      .ok (.ofBool true) := by
  rw [charEq, strictBinary_of_notNull rfl rfl, bytes_padded hn, bytes_padded hm,
    removeTrailingSpace_eq, removeTrailingSpace_eq, trimmed_padded hfit, trimmed_padded hfit',
    decide_eq_true rfl]

/-- For a string, as an argument of the input functions: both reject it exactly
when it does not fit without its trailing spaces. Else `VARCHAR_in` keeps its
first bytes, the cast of that to `CHAR` is what `CHAR_in` returns, and so is the
cast of it to `VARCHAR` and back. Up to the largest size of a datum, `CHAR_in`
pads to the size asked for, the cast to `VARCHAR` gives the string without its
trailing spaces, and the `CHAR` of any other size that takes the string is
equal. -/
theorem char_varchar_coherent (owned : Bool) (s : ByteString) (hs : s.length < 2 ^ 32)
    (n : Nat) :
    ((∃ e, varcharIn ⟨[.varlen owned s hs], n⟩ = .error e) ↔ n < (trimmed 0x20 s).length) ∧
    ((∃ e, charIn ⟨[.varlen owned s hs], n⟩ = .error e) ↔ n < (trimmed 0x20 s).length) ∧
    ((trimmed 0x20 s).length ≤ n →
      ∃ v c t, varcharIn ⟨[.varlen owned s hs], n⟩ = .ok v ∧
        v.getVarlenBytes = s.take n ∧
        charIn ⟨[.varlen owned s hs], n⟩ = .ok c ∧
        varcharToChar ⟨[v], n⟩ = .ok c ∧
        charToVarchar ⟨[c], 0⟩ = .ok t ∧
        varcharToChar ⟨[t], n⟩ = .ok c ∧
        (n < 2 ^ 32 →
          c.getVarlenBytes = s.take n ++ List.replicate (n - s.length) 0x20 ∧
          c.getVarlenSize = n ∧
          t.getVarlenBytes = trimmed 0x20 s ∧
          ∀ m < 2 ^ 32, ∀ c', charIn ⟨[.varlen owned s hs], m⟩ = .ok c' →
            charEq ⟨[c, c'], 0⟩ = .ok (.ofBool true))) := by
  have hd : (Datum.varlen owned s hs).isnull = false := rfl
  have hle := length_trimmed_le 0x20 s
  have hvarchar := varcharIn_eq hd n
  have hchar := charIn_eq hd
  simp only [Datum.getVarlenBytes, removeTrailingSpace_eq] at hvarchar hchar
  refine ⟨(rejects_iff hvarchar).trans Nat.not_le, (rejects_iff (hchar n)).trans Nat.not_le,
    fun hfit => ?_⟩
  have htake : (s.take n).length ≤ n := List.length_take_le n s
  have hbytes : (Datum.ofBytes (s.take n)).getVarlenBytes = s.take n :=
    getVarlenBytes_ofBytes ((List.length_take_le' n s).trans_lt hs)
  refine ⟨.ofBytes (s.take n), .ofBytes ((s.take n).rightpad n 0x20),
    .ofBytes (trimmed 0x20 (Datum.ofBytes ((s.take n).rightpad n 0x20)).getVarlenBytes),
    hvarchar.trans (if_pos hfit), hbytes, (hchar n).trans (if_pos hfit), ?_, ?_, ?_, ?_⟩
  · rw [varcharToChar, castFunction_eq rfl, hbytes, varcharToCharBytes_eq htake]
  · rw [charToVarchar, castFunction_eq rfl, charToVarcharBytes_zero]
  · have hsize : (trimmed 0x20
        (Datum.ofBytes ((s.take n).rightpad n 0x20)).getVarlenBytes).length ≤ n := by
      refine (length_trimmed_le _ _).trans ((List.length_take_le' _ _).trans ?_)
      rw [List.length_rightpad, Nat.max_eq_left htake]
    rw [varcharToChar, castFunction_eq rfl, getVarlenBytes_ofBytes
      ((length_trimmed_le _ _).trans_lt (Datum.getVarlenSize_lt _)), varcharToCharBytes_eq hsize,
      ofBytes_rightpad_trimmed htake]
  · intro hn
    have hc := bytes_padded (s := s) hn
    refine ⟨?_, ?_, ?_, fun m hm c' hc' => ?_⟩
    · rw [hc, List.rightpad, List.length_take]
      congr 2
      omega
    · rw [Datum.getVarlenSize, hc, List.length_rightpad, Nat.max_eq_left htake]
    · rw [hc, trimmed_padded hfit, getVarlenBytes_ofBytes (hle.trans_lt hs)]
    · rw [hchar m] at hc'
      split at hc'
      · rename_i hfit'
        cases hc'
        exact charEq_padded hn hm hfit hfit'
      · cases hc'

theorem char_varchar_coherent_blank :
    ∃ v c t, varcharIn ⟨[.varlen true (ascii "ab  ") (by decide)], 3⟩ = .ok v ∧
      v.getVarlenBytes = ascii "ab " ∧
      charIn ⟨[.varlen true (ascii "ab  ") (by decide)], 3⟩ = .ok c ∧
      c.getVarlenBytes = ascii "ab " ∧
      charToVarchar ⟨[c], 0⟩ = .ok t ∧ t.getVarlenBytes = ascii "ab" := by
  obtain ⟨v, c, t, hv, hvb, hc, -, ht, -, hsmall⟩ :=
    (char_varchar_coherent true (ascii "ab  ") (by decide) 3).2.2 (by decide)
  obtain ⟨hcb, -, htb, -⟩ := hsmall (by decide)
  exact ⟨v, c, t, hv, hvb, hc, hcb, ht, htb⟩

/-- The size of a datum is a `uint32_t`, so a parameter of `2 ^ 32` leaves
nothing. -/
theorem charIn_wraps :
    ∃ c, charIn ⟨[.varlen true [] (by decide)], 2 ^ 32⟩ = .ok c ∧ c.getVarlenSize = 0 := by
  refine ⟨.ofBytes (List.rightpad (2 ^ 32) 0x20 []), ?_, ?_⟩
  · have hnil : (Datum.varlen true [] (by decide)).getVarlenBytes = [] := rfl
    have hfit : (removeTrailingSpace []).length ≤ 2 ^ 32 := Nat.zero_le _
    rw [charIn_eq rfl, hnil, if_pos hfit, List.take_nil]
  · change (List.take _ _).length = 0
    rw [List.length_rightpad, List.length_nil, Nat.max_eq_left (Nat.zero_le _), Nat.mod_self,
      List.take_zero, List.length_nil]

end Taco
