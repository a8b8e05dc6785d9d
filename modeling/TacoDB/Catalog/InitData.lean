import TacoDB.Catalog.FindNextToken

/-!
# The data lines of `init.dat`

`gen_init_data.sh` prints a catalog row as the word `data` and one text for each field: the
decimal number, `t` or `f`, or a string between quotes. It does not escape anything, so a
string is read back by `FindNextToken` only when there is nothing in it to escape.
-/

namespace Taco

open Quoting InitDataFileReader

inductive RowValue where
  | int (n : Int)
  | bool (v : Bool)
  | varchar (v : ByteString)
  deriving DecidableEq

namespace RowValue

def text : RowValue → ByteString
  | .int n => ascii (toString n)
  | .bool v => ascii (if v then "t" else "f")
  | .varchar v => v

def printed : RowValue → ByteString
  | .int n => ascii " " ++ ascii (toString n)
  | .bool v => if v then ascii " t" else ascii " f"
  | .varchar v => ascii " \"" ++ v ++ ascii "\""

def Unescaped : RowValue → Prop
  | .varchar v => ∀ c ∈ v, ¬ Special charQuote charBackslash c
  | _ => True

def token : RowValue → Token
  | .varchar v => ⟨true, v⟩
  | v => ⟨false, v.text⟩

end RowValue

/-- The line the generator prints for a row. -/
def dataLine (row : List RowValue) : ByteString := ascii "data" ++ row.flatMap RowValue.printed

theorem toList_toString_nat (m : Nat) : (toString m).toList = Nat.toDigits 10 m := by
  rw [Nat.toString_eq_repr, Nat.repr, String.toList_ofList]

theorem toList_toString_negSucc (m : Nat) :
    (toString (Int.negSucc m)).toList = '-' :: (toString (m + 1)).toList := by
  rw [show toString (Int.negSucc m) = "-" ++ toString (m + 1) from rfl, String.toList_append]
  rfl

theorem toList_toString_ne_nil (n : Int) : (toString n).toList ≠ [] := by
  cases n with
  | ofNat m =>
      change (toString m).toList ≠ []
      rw [toList_toString_nat]
      exact Nat.toDigits_ne_nil
  | negSucc m =>
      rw [toList_toString_negSucc]
      exact List.cons_ne_nil _ _

theorem mem_toString {n : Int} {c : Char} (hc : c ∈ (toString n).toList) :
    c.isDigit = true ∨ c = '-' := by
  have hnat : ∀ m : Nat, c ∈ (toString m).toList → c.isDigit = true := by
    intro m hm
    rw [toList_toString_nat] at hm
    exact Nat.isDigit_of_mem_toDigits (by decide) (by decide) hm
  cases n with
  | ofNat m => exact Or.inl (hnat m hc)
  | negSucc m =>
      rw [toList_toString_negSucc] at hc
      rcases List.mem_cons.mp hc with rfl | hc
      · exact Or.inr rfl
      · exact Or.inl (hnat (m + 1) hc)

theorem mem_ascii_toString {n : Int} {b : Byte} (hb : b ∈ ascii (toString n)) :
    b ≠ charSpace ∧ b ≠ charQuote := by
  obtain ⟨c, hc, rfl⟩ := List.mem_map.mp hb
  rcases mem_toString hc with hdigit | rfl
  · have hval : 48 ≤ c.val ∧ c.val ≤ 57 := by simpa [Char.isDigit] using hdigit
    have hle : 48 ≤ c.toNat := UInt32.le_iff_toNat_le.mp hval.1
    have hle' : c.toNat ≤ 57 := UInt32.le_iff_toNat_le.mp hval.2
    have htoNat : (BitVec.ofNat 8 c.toNat).toNat = c.toNat := by
      rw [BitVec.toNat_ofNat]
      omega
    constructor
    · intro heq
      have := congrArg BitVec.toNat heq
      rw [htoNat, show charSpace.toNat = 32 from rfl] at this
      omega
    · intro heq
      have := congrArg BitVec.toNat heq
      rw [htoNat, show charQuote.toNat = 34 from rfl] at this
      omega
  · exact ⟨by decide, by decide⟩

namespace RowValue

/-- A number, a letter or a string with nothing to escape is a token, and the generator
prints it so. -/
theorem token_of_unescaped {v : RowValue} (hv : v.Unescaped) :
    v.token.Renderable ∧ v.token.content = v.text ∧ v.printed = charSpace :: v.token.render := by
  cases v with
  | int n =>
      refine ⟨⟨?_, fun hmem => (mem_ascii_toString hmem).1 rfl, fun hhead => ?_⟩, rfl, rfl⟩
      · exact fun hnil => toList_toString_ne_nil n (List.map_eq_nil_iff.mp hnil)
      · exact (mem_ascii_toString (List.mem_of_head? hhead)).2 rfl
  | bool v =>
      refine ⟨?_, rfl, ?_⟩
      · cases v
        · exact ⟨by decide, by decide, by decide⟩
        · exact ⟨by decide, by decide, by decide⟩
      · cases v <;> rfl
  | varchar v =>
      refine ⟨fun hspecial => ?_, rfl, ?_⟩
      · obtain ⟨c, hc, hs⟩ := hspecial
        exact absurd hs (hv c hc)
      · change ascii " \"" ++ v ++ ascii "\"" =
          charSpace :: charQuote :: (escape charQuote charBackslash v ++ [charQuote])
        rw [escape_eq_self hv]
        rfl

theorem findNextToken_escapeless {v : ByteString}
    (hv : ¬ (varchar v).Unescaped) {str rest : ByteString} {p : Nat}
    (h : charSpace :: str.drop p = (varchar v).printed ++ rest) (w : ByteString) (pos : Nat)
    (hfind : findNextToken str p = .ok (some (w, pos))) : w ≠ v := by
  have hdrop : str.drop p = charQuote :: (v ++ charQuote :: rest) := by
    have hsplit : (varchar v).printed ++ rest = charSpace :: charQuote :: (v ++ charQuote :: rest) := by
      change (ascii " \"" ++ v ++ ascii "\"") ++ rest = _
      rw [List.append_assoc, List.append_assoc]
      rfl
    rw [hsplit] at h
    exact (List.cons.inj h).2
  obtain ⟨hget, htail, -⟩ := getElem?_of_drop hdrop
  unfold findNextToken at hfind
  rw [hget] at hfind
  dsimp only at hfind
  rw [if_pos rfl] at hfind
  obtain ⟨r, hread, hw, -⟩ := scanQuoted_some (Nat.le_refl _) hfind
  rw [htail] at hread
  have hsoFar : tokenSoFar str (p + 1) (p + 1) none = [] := by
    rw [tokenSoFar, Option.getD_none, Nat.sub_self, Buffer.slice, List.take_zero]
  rw [hsoFar, List.nil_append] at hw
  rw [hw]
  have hspecial : ∃ c ∈ v, Special charQuote charBackslash c := by
    by_contra hnone
    push Not at hnone
    exact hv hnone
  exact readQuoted_raw_ne quote_ne_backslash hspecial rest r hread

end RowValue

section DataLine

theorem dataLine_eq_line {row : List RowValue} (hrow : ∀ v ∈ row, v.Unescaped) (tok : Token) :
    tok.render ++ row.flatMap RowValue.printed = Token.line (tok :: row.map RowValue.token) := by
  induction row generalizing tok with
  | nil =>
      rw [List.flatMap_nil, List.append_nil, List.map_nil, Token.line, List.map_cons, List.map_nil,
        List.intercalate_singleton]
  | cons v row ih =>
      rw [List.flatMap_cons, (RowValue.token_of_unescaped (hrow v List.mem_cons_self)).2.2,
        List.map_cons, Token.line_cons_cons, List.cons_append,
        ih fun u hu => hrow u (List.mem_cons_of_mem _ hu)]

theorem printed_eq_cons (v : RowValue) : ∃ x, v.printed = charSpace :: x := by
  cases v with
  | int n => exact ⟨_, rfl⟩
  | bool v => cases v <;> exact ⟨_, rfl⟩
  | varchar v => exact ⟨_, rfl⟩

/-- When there are tokens behind `p`, the first one is what `FindNextToken` returns. -/
theorem findNextToken_of_tokensFrom {str w : ByteString} {ws : List ByteString} {p n : Nat}
    (h : tokensFrom str n p = .ok (some (w :: ws))) :
    ∃ m pos, n = m + 1 ∧ findNextToken str p = .ok (some (w, pos)) := by
  unfold tokensFrom at h
  split at h
  · cases h
  · cases n with
    | zero => cases h
    | succ n =>
        dsimp only at h
        obtain ⟨r, hfind, hrest⟩ := Eff.except_bind_eq_ok_iff.mp h
        cases r with
        | none => cases hrest
        | some r =>
            obtain ⟨rs, -, hmap⟩ := Eff.except_bind_eq_ok_iff.mp hrest
            obtain ⟨ws', -, hcons⟩ := Option.map_eq_some_iff.mp (Except.ok.inj hmap)
            obtain ⟨rfl, -⟩ := List.cons.inj hcons
            exact ⟨n, r.2, rfl, hfind⟩

theorem tail_of_map_cons {x : Except Failure (Option (List ByteString))} {w w' : ByteString}
    {ws : List ByteString} (h : x.map (Option.map (w :: ·)) = .ok (some (w' :: ws))) :
    x = .ok (some ws) := by
  cases x with
  | error e => cases h
  | ok r =>
      obtain ⟨ws', hr, hcons⟩ := Option.map_eq_some_iff.mp (Except.ok.inj h)
      rw [hr, (List.cons.inj hcons).2]

/-- When the tokens behind position `p` are the texts of the fields, no string has something
to escape. -/
theorem unescaped_of_tokensFrom {row : List RowValue} {str : ByteString} {p n : Nat}
    (h : charSpace :: str.drop p = row.flatMap RowValue.printed)
    (htokens : tokensFrom str n p = .ok (some (row.map RowValue.text))) :
    ∀ v ∈ row, v.Unescaped := by
  induction row generalizing p n with
  | nil =>
      intro v hv
      cases hv
  | cons v row ih =>
      rw [List.flatMap_cons] at h
      rw [List.map_cons] at htokens
      obtain ⟨m, pos, rfl, hfind⟩ := findNextToken_of_tokensFrom htokens
      have hv : v.Unescaped := by
        cases v with
        | int n => trivial
        | bool v => trivial
        | varchar v =>
            by_contra hv
            exact RowValue.findNextToken_escapeless hv h _ _ hfind rfl
      intro u hu
      rcases List.mem_cons.mp hu with rfl | hu
      · exact hv
      -- the rest of the line begins with the space in front of the next field
      cases row with
      | nil => cases hu
      | cons v' row =>
          obtain ⟨hrender, hcontent, hprinted⟩ := RowValue.token_of_unescaped hv
          obtain ⟨x, hx⟩ := printed_eq_cons v'
          rw [hprinted, List.flatMap_cons, hx, List.cons_append, List.cons_append] at h
          obtain ⟨hdrop, hstep⟩ := Token.tokensFrom_cons (n := m) hrender (List.cons.inj h).2
          rw [hstep] at htokens
          refine ih ?_ (tail_of_map_cons htokens) u hu
          rw [hdrop, List.flatMap_cons, hx, List.cons_append]

/-- The reader splits a data line of the generator into the word `data` and one token for
each field, whose text is that of the field, exactly when no string of the row contains a
quote or a backslash. -/
theorem tokens_dataLine_iff (row : List RowValue) :
    tokens (dataLine row) = .ok (some (ascii "data" :: row.map RowValue.text)) ↔
      ∀ v, .varchar v ∈ row → charQuote ∉ v ∧ charBackslash ∉ v := by
  have hword : Token.Renderable ⟨false, ascii "data"⟩ := ⟨by decide, by decide, by decide⟩
  have hiff : (∀ v, .varchar v ∈ row → charQuote ∉ v ∧ charBackslash ∉ v) ↔
      ∀ v ∈ row, v.Unescaped := by
    constructor
    · intro hrow v hv
      cases v with
      | int n => trivial
      | bool v => trivial
      | varchar v =>
          obtain ⟨hq, hb⟩ := hrow v hv
          rintro c hc (rfl | rfl)
          · exact hq hc
          · exact hb hc
    · intro hrow v hv
      have hv' := hrow _ hv
      exact ⟨fun hq => hv' _ hq (Or.inl rfl), fun hb => hv' _ hb (Or.inr rfl)⟩
  rw [hiff]
  constructor
  · intro htokens
    cases row with
    | nil =>
        intro v hv
        cases hv
    | cons v row =>
        obtain ⟨m, pos, hm, -⟩ := findNextToken_of_tokensFrom htokens
        obtain ⟨x, hx⟩ := printed_eq_cons v
        have hline : (dataLine (v :: row)).drop 0 =
            Token.render ⟨false, ascii "data"⟩ ++ charSpace :: (x ++ row.flatMap RowValue.printed) := by
          rw [List.drop_zero, dataLine, List.flatMap_cons, hx, List.cons_append]
          rfl
        obtain ⟨hdrop, hstep⟩ := Token.tokensFrom_cons (n := m) hword hline
        rw [tokens, hm, hstep] at htokens
        refine unescaped_of_tokensFrom ?_ (tail_of_map_cons htokens)
        rw [hdrop, List.flatMap_cons, hx, List.cons_append]
  · intro hrow
    have hline : dataLine row = Token.line (⟨false, ascii "data"⟩ :: row.map RowValue.token) :=
      dataLine_eq_line hrow ⟨false, ascii "data"⟩
    have hcontent : (row.map RowValue.token).map Token.content = row.map RowValue.text := by
      rw [List.map_map]
      exact List.map_congr_left fun v hv => (RowValue.token_of_unescaped (hrow v hv)).2.1
    have htoks : ∀ tok ∈ Token.mk false (ascii "data") :: row.map RowValue.token,
        tok.Renderable := by
      intro tok htok
      rcases List.mem_cons.mp htok with rfl | htok
      · exact hword
      · obtain ⟨v, hv, rfl⟩ := List.mem_map.mp htok
        exact (RowValue.token_of_unescaped (hrow v hv)).1
    rw [tokens, hline, Token.tokensFrom_line (List.cons_ne_nil _ _) htoks rfl
      (Token.length_le_line htoks), List.map_cons, hcontent]

/-- A string with a quote in it is cut off at that quote. -/
theorem tokens_dataLine_quote :
    tokens (dataLine [.int 7, .varchar (ascii "a\" b")]) ≠
      .ok (some (ascii "data" :: [.int 7, .varchar (ascii "a\" b")].map RowValue.text)) := by
  have htokens : tokens (dataLine [.int 7, .varchar (ascii "a\" b")]) =
      .ok (some [ascii "data", ascii "7", ascii "a", ascii "b\""]) := by decide +kernel
  rw [htokens]
  decide +kernel

end DataLine

end Taco
