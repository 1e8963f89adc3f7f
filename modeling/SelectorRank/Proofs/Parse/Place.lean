import Mathlib.Data.List.Basic
import SelectorRank.Parse
import SelectorRank.Proofs.Grammar.Named
import SelectorRank.Proofs.Series

/-! Places of complaints. A message about a lexeme quotes its value as it is and names its place
behind it, and the first place in the message is taken. So the complaint stands where the lexeme
starts as long as the value says nothing about a place. -/
namespace SelectorRank
open Text

/-! Places in a text. -/

def placeAt? : List Char → Option (List Nat)
  | ' ' :: 'a' :: 't' :: ' ' :: rest => placeDigits? rest
  | _ => none

theorem findPlaceCons (c : Char) (cs : List Char) :
    findPlace? (c :: cs) = (placeAt? (c :: cs)).or (findPlace? cs) := by
  rw [findPlace?]
  split
  · next ds found =>
    have here : placeAt? (c :: cs) = some ds := found
    rw [here, Option.some_or]
  · next absent =>
    have here : placeAt? (c :: cs) = none := absent
    rw [here, Option.none_or]

theorem placeDigitsRead {front : List Char} (rest : List Char) (some : front ≠ [])
    (digits : ∀ c ∈ front, isDigit c = true) :
    placeDigits? (front ++ '>' :: rest) = Option.some (front.filterMap digitValue?) := by
  have ends : EndsAt isDigit ('>' :: rest) := by
    intro c head
    cases head
    rfl
  have spent : ('>' :: rest).dropWhile isDigit = '>' :: rest := rfl
  rw [placeDigits?, List.dropWhile_append_of_pos digits, spent, takeWhileFront digits ends]
  cases front with
  | nil => contradiction
  | cons c cs =>
    obtain ⟨d, value⟩ := Option.isSome_iff_exists.mp (digits c (by simp))
    simp [value]

/-! No quote stands in a place, so none begins before a quote and ends behind it. -/

theorem placeDigitsQuote (cs rest : List Char) :
    placeDigits? (cs ++ '\x27' :: rest) = placeDigits? cs := by
  have quote : isDigit '\x27' = false := rfl
  cases left : cs.dropWhile isDigit with
  | nil => simp [placeDigits?, List.dropWhile_append, left, quote]
  | cons c after =>
    have whole : cs.takeWhile isDigit ++ c :: after = cs := by
      rw [← left, List.takeWhile_append_dropWhile]
    have shorter : (cs.takeWhile isDigit).length ≠ cs.length := by
      have size := congrArg List.length whole
      simp only [List.length_append, List.length_cons] at size
      omega
    unfold placeDigits?
    rw [List.dropWhile_append, List.takeWhile_append, left, if_neg shorter]
    by_cases close : c = '>'
    · subst close
      rfl
    · simp [close]

theorem beforeQuote {cs rest after : List Char} {c : Char}
    (same : cs ++ '\x27' :: rest = c :: after) (other : c ≠ '\x27') :
    ∃ front, cs = c :: front ∧ front ++ '\x27' :: rest = after := by
  cases cs with
  | nil => exact absurd (List.cons.inj same).1.symm other
  | cons d front =>
    obtain ⟨rfl, later⟩ := List.cons.inj same
    exact ⟨front, rfl, later⟩

theorem placeAtQuote (cs rest : List Char) : placeAt? (cs ++ '\x27' :: rest) = placeAt? cs := by
  unfold placeAt?
  split
  · next same =>
    -- None of the four characters that open a place is a quote, so all of them stand before it.
    obtain ⟨_, rfl, first⟩ := beforeQuote same (by decide)
    obtain ⟨_, rfl, second⟩ := beforeQuote first (by decide)
    obtain ⟨_, rfl, third⟩ := beforeQuote second (by decide)
    obtain ⟨digits, rfl, rfl⟩ := beforeQuote third (by decide)
    exact placeDigitsQuote digits rest
  · next none =>
    split
    · exact absurd rfl (none _)
    · rfl

theorem findQuoted (cs rest : List Char) :
    findPlace? (cs ++ '\x27' :: rest) = (findPlace? cs).or (findPlace? rest) := by
  induction cs with
  | nil => rfl
  | cons c cs ih =>
    have here := placeAtQuote (c :: cs) rest
    rw [List.cons_append] at here ⊢
    rw [findPlaceCons, findPlaceCons, here, ih, Option.or_assoc]

/-! Places as messages write them. -/

def placeDigits (n : Nat) : List Nat := (natural n).map (fun c => c.toNat - 48)

theorem placeDigitsLength (n : Nat) : (placeDigits n).length = (natural n).length :=
  List.length_map ..

theorem placeDigitsValue (n : Nat) : ofDigitValues (placeDigits n) = n := by
  rw [placeDigits, Series.ofDigitValuesRead]
  exact Nat.ofDigitChars_ten_toDigits

theorem naturalPlace (n : Nat) : (natural n).filterMap digitValue? = placeDigits n := by
  rw [placeDigits, ← List.filterMap_eq_map]
  exact List.filterMap_congr fun c member => Series.digitValueAscii (naturalDigits n c member)

theorem findWritten (n : Nat) :
    findPlace? (" at ".toList ++ (natural n ++ ['>'])) = some (placeDigits n) := by
  have digits : ∀ c ∈ natural n, isDigit c = true := by
    intro c member
    rw [isDigit, Series.digitValueAscii (naturalDigits n c member)]
    rfl
  have read : placeDigits? (natural n ++ ['>']) = some (placeDigits n) :=
    (placeDigitsRead [] Nat.toDigits_ne_nil digits).trans (congrArg some (naturalPlace n))
  have chars : " at ".toList = [' ', 'a', 't', ' '] := rfl
  rw [chars, List.cons_append, findPlaceCons]
  simp [placeAt?, read]

/-! Messages about lexemes. -/

def Placeless (front : List Char) : Prop := ∀ rest, findPlace? (front ++ rest) = findPlace? rest

theorem phrasePlaceless (what : Expected) : Placeless what.phrase.toList := by
  cases what <;> (rw [Expected.phrase]; exact fun _ => rfl)

theorem kindPlaceless (shape : Shape) : Placeless shape.kind.toList := by
  cases shape <;> (rw [Shape.kind]; exact fun _ => rfl)

theorem lexemeChars {l : Lexeme} (more : l.shape ≠ .stop) :
    l.text.toList = "<".toList ++ (l.shape.kind.toList ++ (" \x27".toList ++
      (l.shape.value.toList ++ '\x27' :: (" at ".toList ++ (natural l.start ++ ['>']))))) := by
  obtain ⟨shape, start⟩ := l
  have text : (Lexeme.mk shape start).text = "<" ++ shape.kind ++ " \x27" ++ shape.value ++
      "\x27" ++ (" at " ++ String.ofList (natural start) ++ ">") := by
    cases shape <;> first | rfl | contradiction
  rw [text]
  simp only [String.toList_append, String.toList_ofList, List.append_assoc]
  rfl

theorem stopChars (start : Nat) : (Lexeme.mk .stop start).text.toList =
    "<".toList ++ ("EOF".toList ++ (" at ".toList ++ (natural start ++ ['>']))) := by
  have text : (Lexeme.mk .stop start).text =
      "<EOF" ++ (" at " ++ String.ofList (natural start) ++ ">") := rfl
  rw [text]
  simp only [String.toList_append, String.toList_ofList, List.append_assoc]
  rfl

/-- The first place that a message about a lexeme names: what its value says, or else its own. -/
def namedPlace (l : Lexeme) : List Nat :=
  (findPlace? l.shape.value.toList).getD (placeDigits l.start)

theorem findLexeme {front : List Char} (opens : Placeless (front ++ ['<'])) (l : Lexeme) :
    findPlace? (front ++ l.text.toList) = some (namedPlace l) := by
  have after (rest : List Char) : findPlace? (front ++ ("<".toList ++ rest)) = findPlace? rest := by
    have mark : "<".toList = ['<'] := rfl
    rw [mark, ← List.append_assoc, opens]
  by_cases stop : l.shape = .stop
  · obtain ⟨_, start⟩ := l
    subst stop
    have kind : Placeless "EOF".toList := fun _ => rfl
    rw [stopChars, after, kind, findWritten]
    rfl
  · have quote : Placeless " \x27".toList := fun _ => rfl
    rw [lexemeChars stop, after, kindPlaceless, quote, findQuoted, findWritten, namedPlace]
    cases findPlace? l.shape.value.toList <;> rfl

theorem findExpected (what : Expected) (got : Lexeme) :
    findPlace? (GrammarFault.expected what got).message.toList = some (namedPlace got) := by
  have message : (GrammarFault.expected what got).message =
      what.phrase ++ ", got " ++ got.text := rfl
  -- The blank before the bracket could begin a place, the bracket behind it cannot go on with one.
  have opens : Placeless (what.phrase.toList ++ ", got ".toList ++ ['<']) := by
    intro rest
    have said : findPlace? (", got ".toList ++ (['<'] ++ rest)) = findPlace? rest := rfl
    rw [List.append_assoc, List.append_assoc, phrasePlaceless]
    exact said
  rw [message, String.toList_append, String.toList_append, findLexeme opens]

/-! Complaints about lexemes. -/

def complainAt (source : String) (f : GrammarFault) (ds : List Nat) : ParseFailure :=
  if ds.length ≤ numeralLimit then
    .rejected ⟨f.message, source, some (Position.ofOffset source.toList (ofDigitValues ds))⟩
  else .longOffset ds.length

theorem complainNamed (source : String) (what : Expected) (got : Lexeme) :
    complainOf source (.expected what got) =
      complainAt source (.expected what got) (namedPlace got) := by
  rw [complainOf, findExpected]
  rfl

theorem complainAtPlaced (source : String) (f : GrammarFault) (ds : List Nat) (start : Nat) :
    (∃ position, complainAt source f ds = .rejected ⟨f.message, source, some position⟩ ∧
      position.offset = start) ↔
    ds.length ≤ numeralLimit ∧ min (ofDigitValues ds) source.length = start := by
  unfold complainAt
  by_cases short : ds.length ≤ numeralLimit
  · simp [short, ofOffsetOffset, clampOffset, String.length_toList]
    omega
  · simp [short]

/-- The value of a lexeme says nothing about a place, or the place it says comes to the start of
the lexeme. -/
def PointsBack (source : String) (l : Lexeme) : Prop :=
  match findPlace? l.shape.value.toList with
  | none => (natural l.start).length ≤ numeralLimit
  | some ds => ds.length ≤ numeralLimit ∧ min (ofDigitValues ds) source.length = l.start

theorem pointsBackNamed {source : String} {l : Lexeme} (stands : StandsIn source.toList l) :
    PointsBack source l ↔ (namedPlace l).length ≤ numeralLimit ∧
      min (ofDigitValues (namedPlace l)) source.length = l.start := by
  have inside := stands.inside
  rw [String.length_toList] at inside
  unfold PointsBack namedPlace
  cases findPlace? l.shape.value.toList with
  | some ds => rfl
  | none => simp [placeDigitsValue, placeDigitsLength, inside]

/-- A lexeme that does not fit stands in the source where the message says. The complaint has the
first place that the message names, and its offset is the start of the lexeme exactly if the value
of the lexeme does not point elsewhere. -/
theorem offendingPlace {source : String} {what : Expected} {got : Lexeme}
    (rejects : readSource source.toList = .error (.expected what got)) :
    (lexemes source.toList).Has got ∧ StandsIn source.toList got ∧
    parseList source = .error (complainAt source (.expected what got) (namedPlace got)) ∧
    ((∃ position, parseList source =
        .error (.rejected ⟨(GrammarFault.expected what got).message, source, some position⟩) ∧
        position.offset = got.start) ↔ PointsBack source got) := by
  have has : (lexemes source.toList).Has got := readSourceWithin rejects
  have stands := hasStands has
  have outcome : parseList source =
      .error (complainAt source (.expected what got) (namedPlace got)) := by
    rw [parseList, rejects, ← complainNamed]
  refine ⟨has, stands, outcome, ?_⟩
  rw [outcome, pointsBackNamed stands, ← complainAtPlaced source (.expected what got)]
  simp only [Except.error.injEq]

theorem offendingPlaceQuoted :
    let source := "a \" at 0>\""
    let got : Lexeme := ⟨.string " at 0>", 2⟩
    readSource source.toList = .error (.expected .selector got) ∧ ¬ PointsBack source got ∧
    parseList source = .error (.rejected
      ⟨"Expected selector, got <STRING \x27 at 0>\x27 at 2>", source, some ⟨1, 1, 0⟩⟩) := by
  intro source got
  have rejects : readSource source.toList = .error (.expected .selector got) :=
    mapFails (f := fun _ => ()) (by decide +kernel)
  obtain ⟨_, _, outcome, _⟩ := offendingPlace rejects
  refine ⟨rejects, ?_, outcome.trans (by decide +kernel)⟩
  have said : findPlace? got.shape.value.toList = some [0] := by decide +kernel
  simp [PointsBack, said, ofDigitValues, got]

end SelectorRank
