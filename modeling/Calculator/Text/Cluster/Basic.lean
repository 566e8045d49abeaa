/-
Module: Calculator.Text.Cluster.Basic
Layer: Text
Purpose: The extended grapheme clusters of a text, which are what a reader takes for its characters:
  a letter with its marks, a Hangul syllable, a flag, an emoji sequence. Whether a character
  continues a cluster is decided from the cluster read so far, because no rule looks further back.
Imports: Calculator.Text.Basic, Calculator.Text.Cluster.Ranges
Trusted boundary: the rules of clusters, which only the editor of lines uses
Main exports: Cluster.Kind, Cluster.Kind.ofChar, Cluster.continues, Text.clusters,
  Text.flatten_clusters
-/
import Calculator.Text.Basic
import Calculator.Text.Cluster.Ranges

namespace Calculator.Text

namespace Cluster

/-- What a character does in a cluster. -/
inductive Kind where
  /-- Nothing special. -/
  | other
  | carriageReturn
  | lineFeed
  /-- Stands alone. -/
  | control
  /-- Extends the character before it. -/
  | extending
  /-- Extends the character before it and links two consonants. -/
  | linking
  /-- Extends the character before it and keeps consonants apart. -/
  | nonJoiner
  /-- Extends the character before it and joins pictographs. -/
  | joiner
  | spacing
  | prepended
  | consonant
  | pictograph
  | regional
  /-- A leading consonant of a Hangul syllable. -/
  | leading
  | vowel
  /-- A trailing consonant of a Hangul syllable. -/
  | trailing
  /-- A Hangul syllable without a trailing consonant. -/
  | openSyllable
  /-- A Hangul syllable with a trailing consonant. -/
  | closedSyllable
  deriving DecidableEq, Repr

namespace Kind

/-- The kind of a code point. -/
def ofCode (n : Nat) : Kind :=
  if n = 0x0D then carriageReturn
  else if n = 0x0A then lineFeed
  else if n = 0x200C then nonJoiner
  else if n = 0x200D then joiner
  else if Ranges.contains Ranges.control n then control
  else if Ranges.contains Ranges.linking n then linking
  else if Ranges.contains Ranges.extending n then extending
  else if Ranges.contains Ranges.spacing n then spacing
  else if Ranges.contains Ranges.prepended n then prepended
  else if Ranges.contains Ranges.consonant n then consonant
  else if Ranges.contains Ranges.pictograph n then pictograph
  else if 0x1F1E6 ≤ n && n ≤ 0x1F1FF then regional
  else if Ranges.contains Ranges.leading n then leading
  else if Ranges.contains Ranges.vowel n then vowel
  else if Ranges.contains Ranges.trailing n then trailing
  else if 0xAC00 ≤ n && n ≤ 0xD7A3 then
    if (n - 0xAC00) % 28 = 0 then openSyllable else closedSyllable
  else other

/-- The kind of a character. -/
def ofChar (c : Char) : Kind := ofCode c.toNat

/-- Characters with a cluster of their own. -/
def standsAlone : Kind → Bool
  | carriageReturn | lineFeed | control => true
  | _ => false

/-- Marks that extend a pictograph without joining it to the next one. -/
def isMark : Kind → Bool
  | extending | linking | nonJoiner => true
  | _ => false

/-- Marks that may stand between the consonants of a conjunct. -/
def fillsConjunct : Kind → Bool
  | extending | linking | joiner => true
  | _ => false

/-- Characters that never start a cluster behind another character. -/
def trails : Kind → Bool
  | extending | linking | nonJoiner | joiner | spacing => true
  | _ => false

/-- The parts of a Hangul syllable that follow one another. -/
def continuesSyllable : Kind → Kind → Bool
  | leading, leading | leading, vowel | leading, openSyllable | leading, closedSyllable => true
  | openSyllable, vowel | openSyllable, trailing | vowel, vowel | vowel, trailing => true
  | closedSyllable, trailing | trailing, trailing => true
  | _, _ => false

end Kind

/-! ### When a cluster goes on

The clusters here are given by the kinds of their characters, the last one first. -/

/-- A consonant, then marks of which at least one links. -/
def awaitsConsonant (cluster : List Kind) : Bool :=
  (cluster.takeWhile Kind.fillsConjunct).contains .linking &&
    (cluster.dropWhile Kind.fillsConjunct).head? = some .consonant

/-- A pictograph, then marks, then a joiner. -/
def awaitsPictograph : List Kind → Bool
  | .joiner :: earlier => (earlier.dropWhile Kind.isMark).head? = some .pictograph
  | _ => false

/-- An odd number of regional indicators, the last of which lacks its partner. -/
def awaitsRegional (cluster : List Kind) : Bool :=
  (cluster.takeWhile (· = .regional)).length % 2 = 1

/-- Whether a cluster goes on with a character of the given kind. -/
def continues (cluster : List Kind) (next : Kind) : Bool :=
  match cluster with
  | [] => false
  | last :: _ =>
      if last = .carriageReturn && next = .lineFeed then true
      else if last.standsAlone || next.standsAlone then false
      else
        next.trails || last = .prepended || last.continuesSyllable next ||
          next = .consonant && awaitsConsonant cluster ||
          next = .pictograph && awaitsPictograph cluster ||
          next = .regional && awaitsRegional cluster

end Cluster

/-- The clusters of a text behind the beginning `current` of a cluster. It is given with its last
    character first, and so are the kinds of its characters. -/
def clustersFrom (current : Text) (kinds : List Cluster.Kind) : Text → List Text
  | [] => [current.reverse]
  | c :: rest =>
      let kind := Cluster.Kind.ofChar c
      if Cluster.continues kinds kind then clustersFrom (c :: current) (kind :: kinds) rest
      else current.reverse :: clustersFrom [c] [kind] rest

/-- The grapheme clusters of a text. -/
def clusters : Text → List Text
  | [] => []
  | c :: rest => clustersFrom [c] [Cluster.Kind.ofChar c] rest

/-- Clusters keep all characters, those of the cluster that is being read included. -/
theorem flatten_clustersFrom (current : Text) (kinds : List Cluster.Kind) (text : Text) :
    (clustersFrom current kinds text).flatten = current.reverse ++ text := by
  induction text generalizing current kinds with
  | nil => simp [clustersFrom]
  | cons c rest ih =>
    simp only [clustersFrom]
    split
    · rw [ih]
      simp
    · rw [List.flatten_cons, ih]
      simp

/-- Clusters lose nothing. -/
theorem flatten_clusters (text : Text) : (clusters text).flatten = text := by
  cases text with
  | nil => rfl
  | cons c rest => exact flatten_clustersFrom [c] _ rest

end Calculator.Text
