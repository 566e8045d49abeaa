/-
Module: Calculator.Token.Scan
Layer: Tokens
Purpose: From texts to tokens. `readToken` reads the token at the start of a text, `lex` skips
  blanks and repeats it, and `scan` adds to a failure where in the text it happened. `lex` itself
  knows no positions: it fails with what was left of the text, so its answer on a suffix does not
  depend on what stood before.
Imports: Calculator.Bracket, Calculator.Numeral, Calculator.Text.Blank, Calculator.Token.Basic
Trusted boundary: none
Main exports: ScanError, Token.readToken, Token.lex, Token.scan, Token.totalWeight_lex,
  Token.totalWeight_scan_stripOuter
-/
import Calculator.Bracket
import Calculator.Numeral
import Calculator.Text.Blank
import Calculator.Token.Basic

namespace Calculator

/-- Why a text does not split into tokens. -/
inductive ScanError where
  /-- No token starts with the character `found`, which stands `offset` bytes into `text`. -/
  | unexpected (offset : Nat) (found : Char) (text : Text)
  /-- A group could not be cut off. -/
  | bracket (error : BracketError)
  deriving DecidableEq, Repr

namespace Token

/-- Why reading stops. -/
inductive Stop where
  /-- No token starts with the character `found`; `rest` stands behind it. -/
  | stray (found : Char) (rest : Text)
  /-- A group could not be cut off. -/
  | bracket (error : BracketError)
  deriving DecidableEq, Repr

/-- Reads the token that starts with the character `c`, and gives what follows the token. -/
def readToken (c : Char) (rest : Text) : Except Stop (Token × Text) :=
  match Operator.ofSymbol? c with
  | some op => .ok (.operator op, rest)
  | none =>
      if c = '(' then
        match Bracket.takeGroup (c :: rest) with
        | .ok (taken, tail) => .ok (.group taken, tail)
        | .error error => .error (.bracket error)
      else
        match Numeral.takeLiteral (c :: rest) with
        | ([], _) => .error (.stray c rest)
        | (literal, tail) => .ok (.number literal, tail)

/-- A token and what follows it make up the text. -/
theorem readToken_append {c : Char} {rest tail : Text} {token : Token}
    (h : readToken c rest = .ok (token, tail)) : token.text ++ tail = c :: rest := by
  unfold readToken at h
  split at h
  · rename_i op hop
    cases h
    rw [Operator.ofSymbol?_eq_some_iff.1 hop]
    rfl
  · split at h
    · split at h
      · rename_i group tail' hgroup
        cases h
        exact (Bracket.takeGroup_eq_ok hgroup).1
      · cases h
    · have hcut := Numeral.takeLiteral_append (c :: rest)
      split at h
      · cases h
      · rename_i literal tail' _ hliteral
        cases h
        rw [hliteral] at hcut
        exact hcut

/-- No token is empty. -/
theorem readToken_text_ne_nil {c : Char} {rest tail : Text} {token : Token}
    (h : readToken c rest = .ok (token, tail)) : token.text ≠ [] := by
  unfold readToken at h
  split at h
  · cases h
    simp [text]
  · split at h
    · split at h
      · rename_i group tail' hgroup
        cases h
        obtain ⟨_, inner, rfl, _⟩ := Bracket.takeGroup_eq_ok hgroup
        simp [text]
      · cases h
    · split at h
      · cases h
      · rename_i literal tail' hne hliteral
        cases h
        exact fun hnil => hne hnil

/-- Reading a token leaves less text. -/
theorem readToken_length {c : Char} {rest tail : Text} {token : Token}
    (h : readToken c rest = .ok (token, tail)) : tail.length ≤ rest.length := by
  have hlength := congrArg List.length (readToken_append h)
  have hpos := List.length_pos_iff.2 (readToken_text_ne_nil h)
  simp only [List.length_append, List.length_cons] at hlength
  omega

/-- The tokens of a text, with any number of blanks around each of them. -/
def lex : Text → Except Stop (List Token)
  | [] => .ok []
  | c :: rest =>
      if Text.isBlank c then lex rest
      else
        match _ : readToken c rest with
        | .error stop => .error stop
        | .ok (token, tail) =>
            match lex tail with
            | .error stop => .error stop
            | .ok tokens => .ok (token :: tokens)
termination_by text => text.length
decreasing_by
  · simp
  · rename_i hread
    have := readToken_length hread
    simp only [List.length_cons]
    omega

/-- The tokens of a text. A failure names the offset at which the unreadable rest begins. -/
def scan (text : Text) : Except ScanError (List Token) :=
  match lex text with
  | .ok tokens => .ok tokens
  | .error (.stray found rest) =>
      .error (.unexpected (Text.utf8Length text - Text.utf8Length (found :: rest)) found text)
  | .error (.bracket error) => .error (.bracket error)

/-- A text is scanned as tokens exactly if the scanner runs through it. -/
theorem scan_eq_ok_iff {text : Text} {tokens : List Token} :
    scan text = .ok tokens ↔ lex text = .ok tokens := by
  unfold scan
  split <;> simp_all

/-! ### The weight of the tokens of a text

A character of a text contributes at most two to the weight of its tokens, and exactly two only
inside a group. So the weight of the tokens stays below twice the length of the text unless the text
is nothing but groups, and then it starts and ends with a bracket. -/

/-- The weight of a token read from a text, compared with the characters it took. -/
theorem weight_readToken {c : Char} {rest tail : Text} {token : Token}
    (h : readToken c rest = .ok (token, tail)) :
    token.weight + 2 * tail.length < 2 * (rest.length + 1) ∨
      token.weight + 2 * tail.length = 2 * (rest.length + 1) ∧
        ∃ inner, c :: rest = '(' :: (inner ++ tail) ∧ inner.getLast? = some ')' := by
  have happend := readToken_append h
  have hne := List.length_pos_iff.2 (readToken_text_ne_nil h)
  have hlength := congrArg List.length happend
  simp only [List.length_append, List.length_cons] at hlength
  unfold readToken at h
  split at h
  · cases h
    simp only [text, List.length_singleton] at hlength
    left
    simp only [weight]
    omega
  · split at h
    · split at h
      · rename_i group tail' hgroup
        cases h
        obtain ⟨hcut, inner, rfl, hlast⟩ := Bracket.takeGroup_eq_ok hgroup
        right
        simp only [text, List.length_cons] at hlength
        refine ⟨?_, inner, ?_, hlast⟩
        · simp only [weight, List.length_cons]
          omega
        · rw [← hcut]; rfl
      · cases h
    · split at h
      · cases h
      · cases h
        simp only [text] at hlength hne
        left
        simp only [weight]
        omega

theorem totalWeight_lex {text : Text} {tokens : List Token} (h : lex text = .ok tokens) :
    totalWeight tokens ≤ 2 * text.length ∧
      (text ≠ [] → totalWeight tokens = 2 * text.length →
        ∃ inner, text = '(' :: inner ∧ inner.getLast? = some ')') := by
  fun_induction lex text generalizing tokens with
  | case1 => cases h; simp [totalWeight]
  | case2 c rest hblank ih =>
    -- A blank weighs nothing, so the text behind it leaves room.
    have hrest := (ih h).1
    simp only [List.length_cons]
    exact ⟨by omega, fun _ hfull => by omega⟩
  | case3 => cases h
  | case4 => cases h
  | case5 c rest _ token tail hread tokens' htail ih =>
    cases h
    have hbound := (ih htail).1
    simp only [totalWeight, List.length_cons]
    rcases weight_readToken hread with hlt | ⟨heq, inner, htext, hlast⟩
    · exact ⟨by omega, fun _ hfull => by omega⟩
    · refine ⟨by omega, fun _ hfull => ⟨inner ++ tail, htext, ?_⟩⟩
      -- Behind a group that weighs all it can, the rest is empty or again ends in a bracket.
      by_cases hnil : tail = []
      · subst hnil
        simpa using hlast
      · obtain ⟨inner', rfl, hlast'⟩ := (ih htail).2 hnil (by omega)
        have hne : inner' ≠ [] := by rintro rfl; simp at hlast'
        simp [List.getLast?_append, List.getLast?_cons, hlast']

/-- Opening a group lowers the weight, whether or not the group had brackets to lose. -/
theorem totalWeight_scan_stripOuter {group : Text} {tokens : List Token}
    (h : scan (Bracket.stripOuter group) = .ok tokens) :
    totalWeight tokens < (Token.group group).weight := by
  obtain ⟨hbound, hfull⟩ := totalWeight_lex (scan_eq_ok_iff.1 h)
  simp only [weight]
  by_cases hbrackets : ∃ inner, group = '(' :: inner ∧ inner.getLast? = some ')'
  · obtain ⟨inner, hgroup, hlast⟩ := hbrackets
    have := Bracket.length_stripOuter hgroup hlast
    omega
  · have hself : Bracket.stripOuter group = group :=
      Bracket.stripOuter_eq_self fun inner hgroup hlast => hbrackets ⟨inner, hgroup, hlast⟩
    rw [hself] at hbound hfull
    by_cases hnil : group = []
    · subst hnil
      simp only [List.length_nil] at hbound ⊢
      omega
    · have : totalWeight tokens ≠ 2 * group.length := fun heq => hbrackets (hfull hnil heq)
      omega

end Token

end Calculator
