import Mathlib
import AdditiveModel.Expr.Expression

/-! Texts that are a name. A name in its own normal form that is no keyword reads as itself: nothing is
cut off its ends, it is one word, and the word is the whole tree. -/

namespace AdditiveModel

namespace Text

namespace CodePoints

theorem exists_range {s : CodePoints} {n : Nat} (h : s.contains n = true) :
    ∃ r ∈ s.ranges.toList, r.1 ≤ n ∧ n ≤ r.2 := by
  dsimp only [contains] at h
  split at h
  · rename_i r hr
    exact ⟨r, Array.mem_toList_iff.2 (Array.mem_of_getElem? hr), (of_decide_eq_true h).2⟩
  · simp at h

def ofChars (css : List (List Char)) : CodePoints :=
  ⟨(css.flatMap fun cs => (splitAt ' ' cs).map rangeOfText).toArray⟩

/-- Lines with the characters that they are spelled with. A table is evaluated on its characters, since
reading them from the text takes longer than everything else. -/
inductive Spelled : List String → List (List Char) → Prop
  | nil : Spelled [] []
  | cons {l : String} {cs : List Char} {lines : List String} {css : List (List Char)} :
    l = String.ofList cs → Spelled lines css → Spelled (l :: lines) (cs :: css)

theorem Spelled.ofLines {lines : List String} {css : List (List Char)} (h : Spelled lines css) :
    ofLines lines = ofChars css := by
  have hlines : lines.map String.toList = css := by
    induction h with
    | nil => rfl
    | cons hl _ ih => simp [hl, ih]
  rw [CodePoints.ofLines, ofChars, ← hlines, List.flatMap_map]

end CodePoints

namespace Identifier

def blanks : List (Nat × Nat) :=
  [(0x85, 0x85), (0xa0, 0xa0), (0x1680, 0x1680), (0x2000, 0x200a), (0x2028, 0x2029),
    (0x202f, 0x202f), (0x205f, 0x205f), (0x3000, 0x3000)]

/-- A range of ASCII letters or the underscore, of ASCII digits where these are admitted, or beyond
ASCII and without blanks. -/
def isWordRange (digits : Bool) (r : Nat × Nat) : Bool :=
  (65 ≤ r.1 && r.2 ≤ 90) || (95 ≤ r.1 && r.2 ≤ 95) || (97 ≤ r.1 && r.2 ≤ 122)
    || (digits && 48 ≤ r.1 && r.2 ≤ 57)
    || (128 ≤ r.1 && blanks.all fun b => r.2 < b.1 || b.2 < r.1)

theorem startSet_wordRanges : ∃ css, startSet = .ofChars css ∧
    (CodePoints.ofChars css).ranges.toList.all (isWordRange false) = true := by
  apply Exists.intro
  constructor
  · apply CodePoints.Spelled.ofLines
    repeat apply CodePoints.Spelled.cons rfl
    exact .nil
  · decide +kernel

theorem continueSet_wordRanges : ∃ css, continueSet = .ofChars css ∧
    (CodePoints.ofChars css).ranges.toList.all (isWordRange true) = true := by
  apply Exists.intro
  constructor
  · apply CodePoints.Spelled.ofLines
    repeat apply CodePoints.Spelled.cons rfl
    exact .nil
  · decide +kernel

/-- A code point of a word: an ASCII letter, the underscore, an ASCII digit where these are admitted, or
beyond ASCII and no blank. -/
def IsWord (digits : Bool) (n : Nat) : Prop :=
  (65 ≤ n ∧ n ≤ 90) ∨ n = 95 ∨ (97 ≤ n ∧ n ≤ 122) ∨ (digits = true ∧ 48 ≤ n ∧ n ≤ 57) ∨
    (128 ≤ n ∧ ∀ b ∈ blanks, n < b.1 ∨ b.2 < n)

theorem isWord_of_contains {digits : Bool} {s : CodePoints} {n : Nat}
    (hs : ∃ css, s = .ofChars css ∧
      (CodePoints.ofChars css).ranges.toList.all (isWordRange digits) = true)
    (h : s.contains n = true) : IsWord digits n := by
  obtain ⟨css, rfl, hranges⟩ := hs
  obtain ⟨r, hr, hlow, hhigh⟩ := CodePoints.exists_range h
  have hrange := List.all_eq_true.1 hranges r hr
  simp only [isWordRange, Bool.or_eq_true, Bool.and_eq_true, decide_eq_true_iff, List.all_eq_true] at hrange
  rcases hrange with (((hupper | hunderscore) | hlower) | hdigit) | ⟨hbeyond, hblanks⟩
  · exact Or.inl (by omega)
  · exact Or.inr (Or.inl (by omega))
  · exact Or.inr (Or.inr (Or.inl (by omega)))
  · exact Or.inr (Or.inr (Or.inr (Or.inl ⟨hdigit.1.1, by omega⟩)))
  · refine Or.inr (Or.inr (Or.inr (Or.inr ⟨by omega, fun b hb => ?_⟩)))
    have := hblanks b hb
    omega

theorem isWord_of_start {c : Char} (h : isStart c = true) : IsWord false c.toNat :=
  isWord_of_contains startSet_wordRanges h

theorem isWord_of_continue {c : Char} (h : isContinue c = true) : IsWord true c.toNat :=
  isWord_of_contains continueSet_wordRanges h

section Word

variable {digits : Bool} {c : Char}

theorem IsWord.not_blank (h : IsWord digits c.toNat) : Blank.isBlank c = false := by
  simp only [IsWord, blanks, List.forall_mem_cons, List.not_mem_nil, false_implies, implies_true,
    and_true] at h
  simp only [Blank.isBlank, Bool.or_eq_false_iff, Bool.and_eq_false_iff, decide_eq_false_iff_not,
    beq_eq_false_iff_ne]
  omega

theorem IsWord.isNameChar (h : IsWord digits c.toNat) : Token.isNameChar c = true := by
  have hunderscore : c = '_' ↔ c.toNat = 95 := by
    rw [← Char.toNat_inj]
    rfl
  simp only [Token.isNameChar, Char.isAlphanum, Char.isAlpha, Char.isUpper, Char.isLower, Char.isDigit,
    Bool.or_eq_true, Bool.and_eq_true, decide_eq_true_iff, beq_iff_eq, hunderscore, ge_iff_le,
    UInt32.le_iff_toNat_le]
  change (((65 ≤ c.toNat ∧ c.toNat ≤ 90 ∨ 97 ≤ c.toNat ∧ c.toNat ≤ 122) ∨
    48 ≤ c.toNat ∧ c.toNat ≤ 57) ∨ c.toNat = 95) ∨ 128 ≤ c.toNat
  unfold IsWord at h
  omega

theorem IsWord.not_digit (h : IsWord false c.toNat) : c.isDigit = false := by
  simp only [Char.isDigit, Bool.and_eq_false_iff, decide_eq_false_iff_not, ge_iff_le,
    UInt32.le_iff_toNat_le]
  change ¬ 48 ≤ c.toNat ∨ ¬ c.toNat ≤ 57
  simp only [IsWord, Bool.false_eq_true, false_and, false_or] at h
  omega

end Word

end Identifier

end Text

namespace Token

open Text

def IsWord (cs : List Char) : Prop :=
  ∃ c rest, cs = c :: rest ∧ Identifier.IsWord false c.toNat ∧
    ∀ d ∈ rest, Identifier.IsWord true d.toNat

section Word

variable {cs : List Char}

theorem isWord_of_name (h : Identifier.isName cs = true) : IsWord cs := by
  cases cs with
  | nil => simp [Identifier.isName] at h
  | cons c rest =>
    simp only [Identifier.isName, Bool.and_eq_true, List.all_eq_true] at h
    exact ⟨c, rest, rfl, Identifier.isWord_of_start h.1, fun d hd => Identifier.isWord_of_continue (h.2 d hd)⟩

theorem IsWord.forall (h : IsWord cs) {d : Char} (hd : d ∈ cs) :
    isNameChar d = true ∧ Blank.isBlank d = false := by
  obtain ⟨c, rest, rfl, hc, hrest⟩ := h
  rcases List.mem_cons.1 hd with rfl | hd
  · exact ⟨hc.isNameChar, hc.not_blank⟩
  · exact ⟨(hrest d hd).isNameChar, (hrest d hd).not_blank⟩

theorem IsWord.ne (h : IsWord cs) {d : Char} (hd : d ∈ cs) (e : Char)
    (he : isNameChar e = false ∨ Blank.isBlank e = true) : d ≠ e := by
  rintro rfl
  obtain ⟨hname, hblank⟩ := h.forall hd
  rw [hname, hblank] at he
  simp at he

theorem dropWhile_of_forall {α : Type} {p : α → Bool} {l : List α} (h : ∀ a ∈ l, p a = false) :
    l.dropWhile p = l := by
  cases l with
  | nil => rfl
  | cons a l => rw [List.dropWhile_cons_of_neg (by simp [h a List.mem_cons_self])]

theorem IsWord.strip (h : IsWord cs) : Blank.strip cs = cs := by
  have hblank : ∀ d ∈ cs, Blank.isBlank d = false := fun d hd => (h.forall hd).2
  rw [Blank.strip, dropWhile_of_forall hblank,
    dropWhile_of_forall fun d hd => hblank d (List.mem_reverse.1 hd), List.reverse_reverse]

theorem unifyLines_of_forall {cs : List Char} (h : ∀ d ∈ cs, d ≠ '\r') : unifyLines cs = cs := by
  induction cs with
  | nil => rfl
  | cons c cs ih =>
    rw [List.forall_mem_cons] at h
    rw [unifyLines, ih h.2]
    · exact fun _ hc => absurd hc h.1
    · exact h.1

theorem IsWord.stringStart (h : IsWord cs) : stringStart? cs = none := by
  have hquote (e : Char) (he : isNameChar e = false) (n : Nat) : ((cs.drop n).head? == some e) = false := by
    rw [beq_eq_false_iff_ne]
    intro hhead
    exact h.ne (List.mem_of_mem_drop (List.mem_of_mem_head? hhead)) e (Or.inl he) rfl
  simp only [stringStart?, hquote '\'' (by decide), hquote '"' (by decide), Bool.or_self,
    Bool.false_eq_true, if_false]

theorem IsWord.word (h : IsWord cs) : word? cs = some (ofWord cs, []) := by
  have hchars : ∀ d ∈ cs, isNameChar d = true := fun d hd => (h.forall hd).1
  have htake : cs.takeWhile isNameChar = cs := List.takeWhile_eq_self_iff.2 hchars
  have hdrop : cs.dropWhile isNameChar = [] := List.dropWhile_eq_nil_iff.2 hchars
  obtain ⟨c, rest, rfl, hc, -⟩ := id h
  have hpoint : c ≠ '.' := h.ne List.mem_cons_self '.' (Or.inl (by decide))
  simp only [word?, h.stringStart, hc.not_digit, beq_eq_false_iff_ne.2 hpoint, Bool.false_and,
    Bool.or_self, Bool.false_eq_true, if_false, hc.isNameChar, if_true, htake, hdrop]

theorem IsWord.scanFrom (h : IsWord cs) (fuel : Nat) {x : String} (hx : ofWord cs = .name x) :
    scanFrom (fuel + 2) true [] cs = [.name x] := by
  have hspace : ∀ d ∈ cs, isSpace d = false := by
    intro d hd
    simp [isSpace, h.ne hd ' ' (Or.inr (by decide)), h.ne hd '\t' (Or.inr (by decide)),
      h.ne hd '\x0c' (Or.inr (by decide))]
  obtain ⟨c, rest, rfl, -, -⟩ := id h
  have hcomment : dropComment (c :: rest) = c :: rest := by
    unfold dropComment
    split
    · rename_i heq
      exact absurd (List.cons.inj heq).1 (h.ne List.mem_cons_self '#' (Or.inl (by decide)))
    · rfl
  have hline : c ≠ '\n' := h.ne List.mem_cons_self '\n' (Or.inr (by decide))
  have hslash : c ≠ '\\' := h.ne List.mem_cons_self '\\' (Or.inl (by decide))
  have hcolumn : column (c :: rest) = 0 := by
    simp [column, hspace c List.mem_cons_self]
  have hend : dropComment [] = [] := rfl
  simp [Token.scanFrom, dropWhile_of_forall hspace, hcomment, hline, hslash, hcolumn, h.word, hx,
    brackets?, hend]

end Word

end Token

namespace Expression

/-- A name of the language that is its own normal form. -/
structure IsOwnName (text : String) : Prop where
  name : Text.Identifier.isName text.toList = true
  notKeyword : text ∉ Token.keywords
  normal : Text.Compatibility.normalize text = text

variable {text : String}

theorem IsOwnName.clean (h : IsOwnName text) : clean text = text := by
  have hword := Token.isWord_of_name h.name
  unfold Expression.clean
  rw [hword.strip]
  split
  · rename_i rest heq
    exact absurd rfl (hword.ne (heq ▸ List.mem_cons_self) '~' (Or.inl (by decide)))
  · exact String.ofList_toList

theorem IsOwnName.scan (h : IsOwnName text) : Token.scan text = [.name text] := by
  have hword := Token.isWord_of_name h.name
  have htoken : Token.ofWord text.toList = .name text := by
    simp [Token.ofWord, String.ofList_toList, h.notKeyword, h.name, h.normal]
  rw [Token.scan, Token.unifyLines_of_forall fun d hd => hword.ne hd '\r' (Or.inr (by decide))]
  exact hword.scanFrom _ htoken

theorem IsOwnName.ofText (h : IsOwnName text) : ofText text = .ok ⟨text, .name text⟩ := by
  have htree : tree? text = .ok (.name text) := by
    rw [tree?, h.scan]
    rfl
  rw [Expression.ofText, h.clean, htree]
  rfl

end Expression

end AdditiveModel
