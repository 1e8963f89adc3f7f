import SelectorRank.Lexeme.Scan

/-! Places of lexemes. A lexeme starts where the text it is cut from goes on with it. -/
namespace SelectorRank

inductive Lexemes.Tail (all : Lexemes) : Lexemes → Prop where
  | whole : Tail all all
  | rest {l : Lexeme} {rest : Lexemes} : Tail all (.next l rest) → Tail all rest

inductive Lexemes.Has (all : Lexemes) : Lexeme → Prop where
  | next {l : Lexeme} {rest : Lexemes} : all.Tail (.next l rest) → Has all l
  | stop {start : Nat} : all.Tail (.stop start) → Has all ⟨.stop, start⟩

/-- A lexeme at its place in a source: what is cut off there, or the end of the source. -/
inductive StandsIn (source : List Char) : Lexeme → Prop where
  | cut {before after : List Char} {c : Char} {shape : Shape} {length : Nat} :
      source.map readable = before ++ c :: after → scan c after = .lexeme shape length →
      StandsIn source ⟨shape, before.length⟩
  | stop : StandsIn source ⟨.stop, source.length⟩

def IsCut (start : Nat) (cs : List Char) (l : Lexeme) (rest : Lexemes) : Prop :=
  ∃ before c after shape length, cs = before ++ c :: after ∧
    scan c after = .lexeme shape length ∧ l = ⟨shape, start + before.length⟩ ∧
    rest = lexemesFrom (length - 1) (start + before.length + 1) after

theorem IsCut.later {start : Nat} {cs : List Char} {l : Lexeme} {rest : Lexemes} (d : Char)
    (cut : IsCut (start + 1) cs l rest) : IsCut start (d :: cs) l rest := by
  obtain ⟨before, c, after, shape, length, rfl, scanned, rfl, rfl⟩ := cut
  have place : start + (d :: before).length = start + 1 + before.length := by
    rw [List.length_cons]
    omega
  exact ⟨d :: before, c, after, shape, length, rfl, scanned, by rw [place], by rw [place]⟩

theorem lexemesNext {skip start : Nat} {cs : List Char} {l : Lexeme} {rest : Lexemes}
    (same : lexemesFrom skip start cs = .next l rest) : IsCut start cs l rest := by
  fun_induction lexemesFrom skip start cs with
  | case1 skip start => cases same
  | case2 skip start c cs ih => exact (ih same).later c
  | case3 start c cs shape length scanned ih =>
    cases same
    exact ⟨[], c, cs, shape, length, rfl, scanned, rfl, rfl⟩
  | case4 start c cs length scanned ih => exact (ih same).later c
  | case5 start c cs scanned => cases same
  | case6 start c cs scanned => cases same

theorem lexemesStop {skip start stop : Nat} {cs : List Char}
    (same : lexemesFrom skip start cs = .stop stop) : stop = start + cs.length := by
  fun_induction lexemesFrom skip start cs with
  | case1 skip start =>
    cases same
    rfl
  | case2 skip start c cs ih =>
    rw [ih same, List.length_cons]
    omega
  | case3 start c cs shape length scanned ih => cases same
  | case4 start c cs length scanned ih =>
    rw [ih same, List.length_cons]
    omega
  | case5 start c cs scanned => cases same
  | case6 start c cs scanned => cases same

theorem lexemesTail {text : List Char} {ls : Lexemes} (left : (lexemesFrom 0 0 text).Tail ls) :
    ∃ skip before after, text = before ++ after ∧ ls = lexemesFrom skip before.length after := by
  induction left with
  | whole => exact ⟨0, [], text, rfl, rfl⟩
  | rest _ ih =>
    obtain ⟨skip, before, after, rfl, same⟩ := ih
    obtain ⟨passed, c, after, shape, length, rfl, _, _, rfl⟩ := lexemesNext same.symm
    exact ⟨length - 1, before ++ passed ++ [c], after, by simp, by simp [Nat.add_assoc]⟩

theorem hasStands {source : List Char} {l : Lexeme} (has : (lexemes source).Has l) :
    StandsIn source l := by
  cases has with
  | next left =>
    obtain ⟨skip, before, after, text, same⟩ := lexemesTail left
    obtain ⟨passed, c, after, shape, length, rfl, scanned, rfl, _⟩ := lexemesNext same.symm
    rw [← List.length_append]
    exact .cut (by rw [text, List.append_assoc]) scanned
  | stop left =>
    obtain ⟨skip, before, after, text, same⟩ := lexemesTail left
    have size := congrArg List.length text
    rw [List.length_map, List.length_append, ← lexemesStop same.symm] at size
    rw [← size]
    exact .stop

theorem StandsIn.inside {source : List Char} {l : Lexeme} (stands : StandsIn source l) :
    l.start ≤ source.length := by
  cases stands with
  | cut text _ =>
    have size := congrArg List.length text
    rw [List.length_map, List.length_append] at size
    simp only [size, Nat.le_add_right]
  | stop => exact Nat.le_refl _

end SelectorRank
