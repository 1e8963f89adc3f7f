import SelectorRank.Proofs.Lexeme.Lexicon
import SelectorRank.Proofs.Lexeme.Scan

/-! Spelled names and strings as the first lexeme of a text. They are cut off where their spelling
ends, whatever they spell, but their value is what was spelled only where no backslash in it stands
before a hexadecimal digit. -/
namespace SelectorRank
open Spelling Unescape

/-! Null characters. A spelling replaces them just as a source does. -/

def readableText (s : String) : String := String.ofList (s.toList.map readable)

theorem readableEq {c d : Char} (visible : d ≠ '\x00') (other : d ≠ replacement) :
    readable c = d ↔ c = d := by
  unfold readable
  split
  · next null =>
    subst null
    exact ⟨fun same => absurd same.symm other, fun same => absurd same.symm visible⟩
  · exact Iff.rfl

theorem isHexReadable (c : Char) : isHex (readable c) = isHex c := by
  unfold readable
  split
  · next null => rw [null]; decide
  · rfl

theorem identifierCharReadable (digits : Bool) (c : Char) :
    identifierChar digits (readable c) = identifierChar digits c := by
  unfold readable
  split
  · next null => rw [null]; cases digits <;> decide
  · rfl

theorem stringCharReadable (c : Char) : stringChar (readable c) = stringChar c := by
  unfold readable
  split
  · next null => rw [null]; decide
  · rfl

theorem flatMapReadable {spell : Char → List Char} (same : ∀ c, spell (readable c) = spell c)
    (value : List Char) : (value.map readable).flatMap spell = value.flatMap spell := by
  rw [List.flatMap_map]
  exact List.flatMap_congr fun c _ => same c

theorem identifierReadable (value : List Char) :
    identifier (value.map readable) = identifier value := by
  have hyphen : readable '-' = '-' := by decide
  have inner := flatMapReadable (identifierCharReadable true)
  match value with
  | [] => rfl
  | c :: cs =>
    by_cases front : c = '-'
    · subst front
      cases cs with
      | nil => rfl
      | cons d cs =>
        simp only [List.map_cons, hyphen, identifier, identifierCharReadable, inner]
    · have front' : readable c ≠ '-' := mt (readableEq (by decide) (by decide)).mp front
      rw [List.map_cons, identifierCons front', identifierCons front, identifierCharReadable, inner]

theorem stringReadable (value : List Char) :
    (value.map readable).flatMap stringChar = value.flatMap stringChar :=
  flatMapReadable stringCharReadable value

theorem clearReadable {value : List Char} : Clear (value.map readable) ↔ Clear value := by
  have mark (c : Char) : readable c = '\\' ↔ c = '\\' := readableEq (by decide) (by decide)
  simp only [Clear, List.isChain_map, mark, isHexReadable]

theorem doubledReadable {value : List Char} : Doubled (value.map readable) ↔ Doubled value := by
  have hyphen (c : Char) : readable c = '-' ↔ c = '-' := readableEq (by decide) (by decide)
  rw [← doubledTake, ← doubledTake, ← List.map_take]
  match value.take 2 with
  | [] => rfl
  | [c] => simp
  | c :: d :: cs => simp [hyphen]

theorem identifierVisible (value : List Char) : HasNoNull (identifier value) := by
  rw [← identifierReadable]
  exact spellsNoNull (identifierSpells (readableVisible value)) (readableVisible value)

theorem stringVisible (value : List Char) : HasNoNull (Spelling.string value) := by
  have body := spellsNoNull (stringSpells (readableVisible value)) (readableVisible value)
  rw [stringReadable] at body
  simp [Spelling.string, Text.doubleQuote, body]

/-! Values. -/

theorem rereadsIff {read value : List Char} (rereads : Rereads false read value)
    (clear : Clear value → read = value) : read = value ↔ Clear value := by
  refine ⟨fun same => ?_, clear⟩
  rcases rereads with fewer | ⟨_, clear⟩
  · rw [same] at fewer
    exact absurd fewer (Nat.lt_irrefl _)
  · exact clear rfl

theorem nameReadIff (value : List Char) :
    ofName (identifier value) = value.map readable ↔ Clear value := by
  have visible := readableVisible value
  rw [← identifierReadable, ← clearReadable]
  exact rereadsIff (rereadsIdentifier visible)
    (ofNameSpelled (by unfold StandsInName; decide) (identifierSpells visible))

theorem stringReadIff (value : List Char) :
    ofString (value.flatMap stringChar) = value.map readable ↔ Clear value := by
  have visible := readableVisible value
  rw [← stringReadable, ← clearReadable]
  exact rereadsIff (rereadsString visible) (ofStringSpelled (stringSpells visible))

/-! The first lexeme of a source. -/

/-- The front of a source is its first lexeme, and the others are those of what follows. -/
structure IsFirst (front rest : String) (shape : Shape) : Prop where
  cut : Cut front.toList shape (rest.toList.map readable)
  first : lexemes (front ++ rest).toList =
    .next ⟨shape, 0⟩ (lexemesFrom 0 front.length (rest.toList.map readable))

theorem firstCut {front rest : String} {shape : Shape} (visible : HasNoNull front.toList)
    (cut : Cut front.toList shape (rest.toList.map readable)) : IsFirst front rest shape where
  cut := cut
  first := by
    rw [String.toList_append, lexemes, List.map_append, readableWhole visible, cutLexemes cut,
      Nat.zero_add, String.length_toList]

/-- A text that cannot go on with a name: neither an escape nor a character of names comes first. -/
def EndsWord (rest : String) : Prop :=
  ∀ c, rest.toList.head? = some c → c ≠ '\\' ∧ c ≠ '\x00' ∧ isNameChars c = false

theorem endsReadable {rest : String} (ends : EndsWord rest) :
    EndsName (rest.toList.map readable) := by
  intro c head
  rw [List.head?_map, Option.map_eq_some_iff] at head
  obtain ⟨d, head, rfl⟩ := head
  obtain ⟨mark, visible, stands⟩ := ends d head
  rw [readable, if_neg visible]
  exact ⟨stands, mark⟩

def Lexemes.first : Lexemes → Option Shape
  | .stop _ => some .stop
  | .fault _ => none
  | .next l _ => some l.shape

section
variable (s rest : String)

theorem identifierTextChars : (identifierText s).toList = identifier s.toList := by
  rw [identifierText, String.toList_ofList]

theorem readableTextSame (cs : List Char) :
    String.ofList cs = readableText s ↔ cs = s.toList.map readable := String.ofList_inj

theorem identifierFirst (some : s ≠ "") (single : ¬ Doubled s.toList) (ends : EndsWord rest) :
    ∃ name, IsFirst (identifierText s) rest (.ident name) ∧
      (name = readableText s ↔ Clear s.toList) := by
  have value : s.toList.map readable ≠ [] := by simpa using some
  have cut := cutIdentText (readableVisible s.toList) value (mt doubledReadable.mp single)
    (endsReadable ends)
  rw [identifierReadable, ← identifierTextChars] at cut
  refine ⟨_, firstCut ?_ cut, ?_⟩
  · rw [identifierTextChars]
    exact identifierVisible s.toList
  · rw [readableTextSame, identifierTextChars]
    exact nameReadIff s.toList

theorem hashFirst (some : s ≠ "") (ends : EndsWord rest) :
    ∃ name, IsFirst ("#" ++ identifierText s) rest (.hash name) ∧
      (name = readableText s ↔ Clear s.toList) := by
  have value : s.toList.map readable ≠ [] := by simpa using some
  have chars : ("#" ++ identifierText s).toList = '#' :: identifier s.toList := by
    rw [String.toList_append, identifierTextChars]
    rfl
  have cut := cutHashText (readableVisible s.toList) value (endsReadable ends)
  rw [identifierReadable, ← chars] at cut
  refine ⟨_, firstCut ?_ cut, ?_⟩
  · rw [chars]
    exact noNullCons.mpr ⟨by decide, identifierVisible s.toList⟩
  · rw [readableTextSame]
    exact nameReadIff s.toList

theorem stringFirst : ∃ value, IsFirst (stringText s) rest (.string value) ∧
    (value = readableText s ↔ Clear s.toList) := by
  have chars : (stringText s).toList = Spelling.string s.toList := by
    rw [stringText, String.toList_ofList]
  have cut := cutStringText (rest.toList.map readable) (readableVisible s.toList)
  have same : Spelling.string (s.toList.map readable) = Spelling.string s.toList := by
    rw [Spelling.string, stringReadable, Spelling.string]
  rw [same, stringReadable, ← chars] at cut
  refine ⟨_, firstCut ?_ cut, ?_⟩
  · rw [chars]
    exact stringVisible s.toList
  · rw [readableTextSame]
    exact stringReadIff s.toList

theorem doubledFirst (doubled : Doubled s.toList) :
    (lexemes (identifierText s).toList).first = some (.delim '-') := by
  rw [lexemes, readableWhole (by rw [identifierTextChars]; exact identifierVisible s.toList),
    identifierTextChars]
  unfold Doubled at doubled
  split at doubled
  · next cs given =>
    rw [given]
    rfl
  · contradiction

/-- A spelled name or string is the first lexeme of any text in which nothing goes on with it, and
reads as what it spells exactly if that is clear. Only a name that is empty or begins with two
hyphens is no identifier. -/
theorem spellingOpens :
    (s ≠ "" → ¬ Doubled s.toList → EndsWord rest →
      ∃ name, IsFirst (identifierText s) rest (.ident name) ∧
        (name = readableText s ↔ Clear s.toList)) ∧
    (s ≠ "" → EndsWord rest →
      ∃ name, IsFirst ("#" ++ identifierText s) rest (.hash name) ∧
        (name = readableText s ↔ Clear s.toList)) ∧
    (∃ value, IsFirst (stringText s) rest (.string value) ∧
      (value = readableText s ↔ Clear s.toList)) ∧
    (s = "" → (lexemes (identifierText s).toList).first = some .stop) ∧
    (Doubled s.toList → (lexemes (identifierText s).toList).first = some (.delim '-')) := by
  refine ⟨identifierFirst s rest, hashFirst s rest, stringFirst s rest, ?_, doubledFirst s⟩
  rintro rfl
  rfl

end

/-- A digit behind a hyphen is spelled by its number, and a backslash before a letter that is a
hexadecimal digit is not read back. -/
theorem spellingOpensNumbered :
    let s := "-1\\b"
    s ≠ "" ∧ ¬ Doubled s.toList ∧ EndsWord ".c" ∧ identifierText s = "-\\31 \\\\b" ∧
      ∃ name, IsFirst (identifierText s) ".c" (.ident name) ∧ name ≠ readableText s := by
  intro s
  have some : s ≠ "" := by decide
  have single : ¬ Doubled s.toList := by decide
  have ends : EndsWord ".c" := by
    intro c head
    obtain rfl : '.' = c := by simpa using head
    decide
  obtain ⟨name, given, same⟩ := (spellingOpens s ".c").1 some single ends
  exact ⟨some, single, ends, by decide, name, given, mt same.mp (by decide)⟩

end SelectorRank
