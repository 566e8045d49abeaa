/-
Module: Calculator.Proofs.Spacing
Layer: Proofs
Purpose: Texts that differ by blanks, and how they are scanned. Texts are respaced by putting blanks in
  and taking them out, at any place but between two characters of which literals are made, where this
  could part or join literals. One blank more changes the tokens of a text only inside one group, and
  there again by one blank: a literal is cut off in the same place, and a group ends at the same
  bracket. A scan that fails still fails, for a reason of the same kind.
Imports: Calculator.Proofs.Fragment, Mathlib.Data.List.Forall2, Mathlib.Logic.Relation
Trusted boundary: none (fully proved)
Main exports: Text.Joined, Text.Spaced, Text.Respaced, Text.respaced_insert, Text.respaced_replace,
  Agree, Token.Spaced, Token.lex_spaced, Token.scan_spaced
-/
import Calculator.Proofs.Fragment
import Mathlib.Data.List.Forall2
import Mathlib.Logic.Relation

namespace Calculator

namespace Text

/-- The characters of which literals are made. -/
def isNumeric (c : Char) : Bool := c.isDigit || c = '.'

/-- Characters of literals stand on both sides of the place where the texts meet. -/
def Joined (left right : Text) : Prop :=
  left.getLast?.any isNumeric = true ∧ right.head?.any isNumeric = true

instance (left right : Text) : Decidable (Joined left right) := inferInstanceAs (Decidable (_ ∧ _))

/-- The second text has one blank more than the first, not between two characters of literals. -/
inductive Spaced : Text → Text → Prop where
  | blank {left right : Text} {c : Char} :
      isBlank c = true → ¬ Joined left right → Spaced (left ++ right) (left ++ c :: right)

/-- The texts differ by blanks that were put in or taken out one by one, none of them between two
    characters of literals: there, blanks can be replaced, but the first cannot come nor the last go. -/
def Respaced : Text → Text → Prop := Relation.EqvGen Spaced

/-! ### Places between characters of literals -/

/-- What stands further in front has no part in joining. -/
theorem Joined.append_left {left right : Text} (h : Joined left right) (before : Text) :
    Joined (before ++ left) right := by
  obtain ⟨c, hc, hnumeric⟩ := (Option.any_eq_true _ _).1 h.1
  refine ⟨?_, h.2⟩
  rw [List.getLast?_append, hc]
  exact hnumeric

/-- What stands further behind has no part in joining. -/
theorem Joined.append_right {left right : Text} (h : Joined left right) (behind : Text) :
    Joined left (right ++ behind) := by
  obtain ⟨c, hc, hnumeric⟩ := (Option.any_eq_true _ _).1 h.2
  refine ⟨h.1, ?_⟩
  rw [List.head?_append, hc]
  exact hnumeric

/-- No blank belongs to a number. -/
theorem isNumeric_of_isBlank {c : Char} (h : isBlank c = true) : isNumeric c = false := by
  obtain ⟨hdigit, hpoint⟩ := Token.ends_of_isBlank [] h c rfl
  simp [isNumeric, hdigit, hpoint]

/-- A blank on the right keeps numbers apart. -/
theorem not_joined_blank (left : Text) {c : Char} (rest : Text) (h : isBlank c = true) :
    ¬ Joined left (c :: rest) := by
  rintro ⟨-, hnumeric⟩
  have hc : isNumeric c = true := hnumeric
  rw [isNumeric_of_isBlank h] at hc
  cases hc

/-- Blanks on the left keep numbers apart. -/
theorem not_joined_behind_blanks (left : Text) {gap : Text} (right : Text) (hgap : Blanks gap)
    (hne : gap ≠ []) : ¬ Joined (left ++ gap) right := by
  rintro ⟨hnumeric, -⟩
  obtain ⟨before, c, rfl⟩ := (List.eq_nil_or_concat gap).resolve_left hne
  have hc : isNumeric c = true := by simpa using hnumeric
  rw [isNumeric_of_isBlank (hgap c (by simp))] at hc
  cases hc

/-! ### Runs of blanks

Blank by blank, whole runs can be put in and taken out, and between characters of literals a run can
take the place of another one. -/

/-- Any number of blanks may be inserted where one may be. -/
theorem respaced_insert {left right gap : Text} (hgap : Blanks gap) (h : ¬ Joined left right) :
    Respaced (left ++ right) (left ++ (gap ++ right)) := by
  induction gap with
  | nil => exact .refl _
  | cons c gap ih =>
      have hc := hgap c List.mem_cons_self
      have hrest := ih fun d hd => hgap d (List.mem_cons_of_mem c hd)
      refine .trans _ _ _ hrest (.rel _ _ (.blank hc ?_))
      cases gap with
      | nil => exact h
      | cons d gap => exact not_joined_blank left _ (hgap d (by simp))

/-- Blanks may be replaced by others, also between two numbers. -/
theorem respaced_replace (left right : Text) {gap gap' : Text} (hgap : Blanks gap) (hne : gap ≠ [])
    (hgap' : Blanks gap') (hne' : gap' ≠ []) :
    Respaced (left ++ (gap ++ right)) (left ++ (gap' ++ right)) := by
  -- Both texts become the one with the two runs in a row.
  have hfirst := respaced_insert hgap' (not_joined_behind_blanks left right hgap hne)
  have hsecond : Respaced (left ++ (gap' ++ right)) (left ++ (gap ++ (gap' ++ right))) := by
    apply respaced_insert hgap
    cases gap' with
    | nil => exact absurd rfl hne'
    | cons c gap' => exact not_joined_blank left _ (hgap' c List.mem_cons_self)
  rw [List.append_assoc, List.append_assoc] at hfirst
  exact .trans _ _ _ hfirst (.symm _ _ hsecond)

end Text

open Text (isBlank isNumeric Joined)

/-! ### Literals at such places -/

namespace Numeral

theorem ends_nil : Ends [] := by
  intro c hc
  cases hc

theorem leadingDigits_append_of_ends (text : Text) {rest : Text} (h : Ends rest) :
    leadingDigits (text ++ rest) = leadingDigits text :=
  (Text.takeWhile_append_of_head Char.isDigit (fun c hc => (h c hc).1) text).1

theorem skipDigits_append_of_ends (text : Text) {rest : Text} (h : Ends rest) :
    skipDigits (text ++ rest) = skipDigits text ++ rest :=
  (Text.takeWhile_append_of_head Char.isDigit (fun c hc => (h c hc).1) text).2

/-- Where no point follows the digits, they are what is cut off. -/
theorem takeLiteral_of_no_point {text : Text} (h : ∀ c ∈ (skipDigits text).head?, c ≠ '.') :
    takeLiteral text = (leadingDigits text, skipDigits text) := by
  have htext := leadingDigits_append_skipDigits text
  simp only [takeLiteral]
  split
  · rename_i hempty
    rw [List.isEmpty_iff.1 hempty, List.nil_append] at htext
    rw [List.isEmpty_iff.1 hempty, htext]
  · split
    · rename_i tail hpoint
      rw [hpoint] at h
      exact absurd rfl (h '.' rfl)
    · rfl

/-- What no literal goes on into stays behind the cut, wherever the cut is. -/
theorem takeLiteral_append_rest (text : Text) {rest : Text} (h : Ends rest) :
    takeLiteral (text ++ rest) = ((takeLiteral text).1, (takeLiteral text).2 ++ rest) := by
  have hlead := leadingDigits_append_of_ends text h
  have hskip := skipDigits_append_of_ends text h
  by_cases hpoint : '.' ∈ (skipDigits text).head?
  · -- What follows the text does not lengthen the fraction either.
    obtain ⟨tail, htail⟩ : ∃ tail, skipDigits text = '.' :: tail := List.head?_eq_some_iff.1 hpoint
    simp only [takeLiteral, hlead, hskip, htail, List.cons_append,
      leadingDigits_append_of_ends tail h, skipDigits_append_of_ends tail h]
    split
    · rfl
    · split <;> rfl
  · have htext : ∀ c ∈ (skipDigits text).head?, c ≠ '.' := by
      rintro c hc rfl
      exact hpoint hc
    have hall : ∀ c ∈ (skipDigits (text ++ rest)).head?, c ≠ '.' := by
      intro c hc
      rw [hskip, List.head?_append] at hc
      rcases Option.or_eq_some_iff.1 hc with hc | ⟨-, hc⟩
      · exact htext c hc
      · exact (h c hc).2
    rw [takeLiteral_of_no_point htext, takeLiteral_of_no_point hall, hlead, hskip]

/-- Nothing but digits and points goes on with a literal. -/
theorem ends_of_not_isNumeric {c : Char} (rest : Text) (h : isNumeric c = false) : Ends (c :: rest) := by
  simp only [isNumeric, Bool.or_eq_false_iff, decide_eq_false_iff_not] at h
  exact ends_cons rest h.1 h.2

/-- A literal is cut off a text in the same place if the text goes on elsewhere than between two
    characters of literals. -/
theorem takeLiteral_append_of_not_joined {text rest : Text} (hne : text ≠ []) (h : ¬ Joined text rest) :
    takeLiteral (text ++ rest) = ((takeLiteral text).1, (takeLiteral text).2 ++ rest) := by
  obtain ⟨before, c, rfl⟩ := (List.eq_nil_or_concat text).resolve_left hne
  rw [List.concat_eq_append] at h ⊢
  cases hc : isNumeric c with
  | false =>
      -- No literal reaches the last character, so the cut is made before it in any case.
      have hlast := takeLiteral_append_rest before (ends_of_not_isNumeric [] hc)
      have hall := takeLiteral_append_rest before (ends_of_not_isNumeric rest hc)
      rw [List.append_assoc, List.singleton_append, hall, hlast, List.append_assoc,
        List.singleton_append]
  | true =>
      apply takeLiteral_append_rest
      cases rest with
      | nil => exact ends_nil
      | cons d rest =>
          apply ends_of_not_isNumeric
          cases hd : isNumeric d with
          | false => rfl
          | true => exact absurd ⟨by simpa using hc, hd⟩ h

end Numeral

/-! ### Results of the same kind -/

/-- Both results are values which are related, or both are errors of one kind. -/
inductive Agree {ε α : Type} (kind : ε → ErrorKind) (related : α → α → Prop) :
    Except ε α → Except ε α → Prop where
  | ok {a b : α} : related a b → Agree kind related (.ok a) (.ok b)
  | error {e f : ε} : kind e = kind f → Agree kind related (.error e) (.error f)

namespace Agree

variable {ε α : Type} {kind : ε → ErrorKind} {related : α → α → Prop}

theorem refl (h : ∀ a, related a a) (result : Except ε α) : Agree kind related result result := by
  cases result with
  | error e => exact .error rfl
  | ok a => exact .ok (h a)

/-- Agreement goes both ways, as the successes are equal. -/
theorem symm {first second : Except ε α} (h : Agree kind Eq first second) :
    Agree kind Eq second first := by
  cases h with
  | ok hvalue => exact .ok hvalue.symm
  | error hkind => exact .error hkind.symm

theorem trans {first second third : Except ε α} (h : Agree kind Eq first second)
    (h' : Agree kind Eq second third) : Agree kind Eq first third := by
  cases h with
  | ok hvalue =>
      cases h' with
      | ok hvalue' => exact .ok (hvalue.trans hvalue')
  | error hkind =>
      cases h' with
      | error hkind' => exact .error (hkind.trans hkind')

/-- What goes on after results that agree agrees. -/
theorem bind {first second : Except ε α} {next next' : α → Except ε α}
    (h : Agree kind Eq first second) (hnext : ∀ a, Agree kind Eq (next a) (next' a)) :
    Agree kind Eq (first.bind next) (second.bind next') := by
  cases h with
  | ok hvalue =>
      cases hvalue
      exact hnext _
  | error hkind => exact .error hkind

end Agree

/-! ### One blank more, for the scanner -/

namespace Token

/-- The token is the same, or a group with one blank more inside. -/
inductive Spaced : Token → Token → Prop where
  | same (token : Token) : Spaced token token
  | group {w w' : Text} :
      Text.Spaced w w' → Spaced (.group (Bracket.enclose w)) (.group (Bracket.enclose w'))

/-- The kind of the error in which reading ends. -/
def Stop.kind : Stop → ErrorKind
  | stray _ _ => .unexpectedCharacter
  | bracket error => error.kind

theorem spaced_refl (tokens : List Token) : List.Forall₂ Spaced tokens tokens :=
  List.forall₂_same.2 fun token _ => .same token

/-- A token that is read from a text is read from a longer one, too. -/
theorem readToken_ok_append {c : Char} {rest tail more : Text} {token : Token}
    (h : readToken c rest = .ok (token, tail)) (hjoined : ¬ Joined (c :: rest) more) :
    readToken c (rest ++ more) = .ok (token, tail ++ more) := by
  unfold readToken at h ⊢
  split at h
  · cases h
    rfl
  · split at h
    · rename_i hopen
      split at h
      · rename_i taken tail' hgroup
        cases h
        obtain ⟨w, hw, rfl, htext⟩ := Bracket.takeGroup_eq_ok_iff.1 hgroup
        have hcut : Bracket.takeGroup (c :: (rest ++ more)) = .ok (Bracket.enclose w, tail ++ more) := by
          apply Bracket.takeGroup_eq_ok_iff.2
          refine ⟨w, hw, rfl, ?_⟩
          rw [← List.cons_append, htext, List.append_assoc]
        simp only [if_pos hopen, hcut]
      · cases h
    · rename_i hopen
      have hcut := Numeral.takeLiteral_append_of_not_joined (List.cons_ne_nil c rest) hjoined
      rw [List.cons_append] at hcut
      split at h
      · cases h
      · rename_i literal tail' hne hliteral
        cases h
        rw [hliteral] at hcut
        simp only [if_neg hopen, hcut]

/-- A character with which no token starts stops the scanner before any text. -/
theorem readToken_stray_append {c d : Char} {rest tail more : Text}
    (h : readToken c rest = .error (.stray d tail)) (hjoined : ¬ Joined (c :: rest) more) :
    readToken c (rest ++ more) = .error (.stray c (rest ++ more)) := by
  unfold readToken at h ⊢
  split at h
  · cases h
  · split at h
    · split at h
      · cases h
      · cases h
    · rename_i hopen
      have hcut := Numeral.takeLiteral_append_of_not_joined (List.cons_ne_nil c rest) hjoined
      rw [List.cons_append] at hcut
      split at h
      · rename_i hnil
        rw [hnil] at hcut
        simp only [if_neg hopen, hcut]
      · cases h

/-- A bracket that is never closed stops the scanner with all that follows it. -/
theorem lex_unclosed {rest : Text} (h : Bracket.takeClosing 0 rest = none) :
    lex ('(' :: rest) = .error (.bracket (.unclosed ('(' :: rest))) := by
  apply lex_of_readToken_error (by decide)
  simp only [readToken, show Operator.ofSymbol? '(' = none from rfl, if_true, Bracket.takeGroup, h]

/-- A balanced text between brackets is one token. -/
theorem lex_group {w : Text} (hw : Bracket.Balanced w) (rest : Text) :
    lex ('(' :: (w ++ ')' :: rest)) = (lex rest).map (group (Bracket.enclose w) :: ·) :=
  lex_of_readToken (by decide) (readToken_group hw rest)

/-- Tokens that agree may be put in front of results that agree. -/
theorem agree_cons {first second : Except Stop (List Token)} {token token' : Token}
    (htoken : Spaced token token') (h : Agree Stop.kind (List.Forall₂ Spaced) first second) :
    Agree Stop.kind (List.Forall₂ Spaced) (first.map (token :: ·)) (second.map (token' :: ·)) := by
  cases h with
  | ok hrest => exact .ok (.cons htoken hrest)
  | error hkind => exact .error hkind

/-- A blank behind a bracket that the text before it leaves open is inside the group of this bracket,
    or the bracket is never closed. -/
theorem lex_spaced_open {rest right : Text} {c : Char} (hc : isBlank c = true)
    (hopen : Bracket.takeClosing 0 rest = none) (hjoined : ¬ Joined ('(' :: rest) right) :
    Agree Stop.kind (List.Forall₂ Spaced) (lex ('(' :: (rest ++ right)))
      (lex ('(' :: (rest ++ c :: right))) := by
  obtain ⟨e, hlevel⟩ := Bracket.exists_level hopen
  have hblank (depth : Nat) (text : Text) :
      Bracket.level depth (c :: text) = Bracket.level depth text := by
    apply Bracket.level_other
    · rintro rfl
      exact absurd hc (by decide)
    · rintro rfl
      exact absurd hc (by decide)
  cases hcut : Bracket.takeClosing e right with
  | none =>
      have hlevel' : Bracket.level 0 (rest ++ [c]) = some e := by
        rw [Bracket.level_append, hlevel]
        exact hblank e []
      have hfirst : Bracket.takeClosing 0 (rest ++ right) = none := by
        rw [Bracket.takeClosing_append_of_level hlevel, hcut]
        rfl
      have hsecond : Bracket.takeClosing 0 (rest ++ c :: right) = none := by
        rw [← List.singleton_append, ← List.append_assoc, Bracket.takeClosing_append_of_level hlevel',
          hcut]
        rfl
      rw [lex_unclosed hfirst, lex_unclosed hsecond]
      exact .error rfl
  | some cut =>
      obtain ⟨w, hw, hclosed⟩ := Bracket.level_of_takeClosing hcut
      have hright : right = w ++ ')' :: cut.2 := by
        rw [← Bracket.takeClosing_append hcut, hw, List.append_assoc, List.singleton_append]
      have hfirst : Bracket.Balanced (rest ++ w) := by
        rw [Bracket.Balanced, Bracket.level_append, hlevel]
        exact hclosed
      have hsecond : Bracket.Balanced (rest ++ c :: w) := by
        rw [Bracket.Balanced, Bracket.level_append, hlevel]
        exact (hblank e w).trans hclosed
      have hinside : ¬ Joined rest w := by
        intro hjoin
        rw [hright] at hjoined
        exact hjoined ((hjoin.append_right _).append_left ['('])
      have hspaced : rest ++ c :: right = (rest ++ c :: w) ++ ')' :: cut.2 := by simp [hright]
      rw [hspaced, hright, ← List.append_assoc, lex_group hfirst, lex_group hsecond]
      exact agree_cons (.group (.blank hc hinside)) (.refl spaced_refl _)

/-- One blank more leaves the tokens as they are but for a blank inside a group, and a scan that fails
    fails for a reason of the same kind. -/
theorem lex_spaced {left right : Text} {c : Char} (hc : isBlank c = true)
    (hjoined : ¬ Joined left right) :
    Agree Stop.kind (List.Forall₂ Spaced) (lex (left ++ right)) (lex (left ++ c :: right)) := by
  match left with
  | [] =>
      rw [List.nil_append, List.nil_append, lex_cons_of_isBlank right hc]
      exact .refl spaced_refl _
  | d :: rest =>
      rw [List.cons_append, List.cons_append]
      cases hd : isBlank d with
      | true =>
          rw [lex_cons_of_isBlank _ hd, lex_cons_of_isBlank _ hd]
          exact lex_spaced hc fun hjoin => hjoined (hjoin.append_left [d])
      | false =>
          have hblank := Text.not_joined_blank (d :: rest) right hc
          cases hread : readToken d rest with
          | ok read =>
              obtain ⟨token, tail⟩ := read
              rw [lex_of_readToken hd (readToken_ok_append hread hjoined),
                lex_of_readToken hd (readToken_ok_append hread hblank)]
              apply agree_cons (.same token)
              apply lex_spaced hc
              intro hjoin
              rw [← readToken_append hread] at hjoined
              exact hjoined (hjoin.append_left token.text)
          | error stop =>
              rcases readToken_eq_error hread with ⟨rfl, hopen, -⟩ | ⟨-, rfl⟩
              · exact lex_spaced_open hc hopen hjoined
              · rw [lex_of_readToken_error hd (readToken_stray_append hread hjoined),
                  lex_of_readToken_error hd (readToken_stray_append hread hblank)]
                exact .error rfl
termination_by left.length
decreasing_by
  · exact Nat.lt_succ_of_le (readToken_length hread)
  · exact Nat.lt_succ_self _

/-- A blank that joins and separates no number changes tokens only inside of groups, and no kind of
    error. -/
theorem scan_spaced {text text' : Text} (h : Text.Spaced text text') :
    Agree ScanError.kind (List.Forall₂ Spaced) (scan text) (scan text') := by
  cases h with
  | @blank left right c hc hjoined =>
      have hlex := lex_spaced hc hjoined
      unfold scan
      generalize lex (left ++ right) = first at hlex ⊢
      generalize lex (left ++ c :: right) = second at hlex ⊢
      cases hlex with
      | ok htokens => exact .ok htokens
      | @error stop stop' hkind => cases stop <;> cases stop' <;> exact .error hkind

/-- What stands in for a group is a group, and the insides of both are scanned alike. -/
theorem Spaced.exists_group {text : Text} {token : Token} (h : Spaced (.group text) token) :
    ∃ text', token = .group text' ∧ Agree ScanError.kind (List.Forall₂ Spaced)
      (scan (Bracket.stripOuter text)) (scan (Bracket.stripOuter text')) := by
  cases h with
  | same => exact ⟨text, rfl, .refl spaced_refl _⟩
  | @group w w' hspaced =>
      refine ⟨Bracket.enclose w', rfl, ?_⟩
      rw [Bracket.stripOuter_enclose, Bracket.stripOuter_enclose]
      exact scan_spaced hspaced

end Token

end Calculator
