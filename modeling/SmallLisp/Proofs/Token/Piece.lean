import Mathlib.Data.List.Basic
import SmallLisp.Token.Scanner

/-!
# The lexical grammar

`Spelling cs ps` says that the characters `cs` are blanks and the pieces `ps`, in order.  A text
runs from one quote to the next, and a word is followed by a break or by the end, so a word is never
a part of a longer one.  A quote without another one after it leaves a piece that is not closed.

`spelling_iff` says that the pieces of a text are the only ones that it spells.  One direction is an
equation of `pieces` for each rule, the other follows the characters from the front.
`Spelling.exists_front` takes the first piece off a text, with the blanks in front of it.

`isBalanced_iff` says what the count of parentheses means for the pieces: there are as many opening
as closing ones.
-/

namespace SmallLisp

/-! ## Words and what follows them -/

/-- The end, or a character that ends a word, comes next. -/
def EndsWord (cs : List Char) : Prop :=
  ∀ c ∈ cs.head?, isWordBreak c = true

theorem endsWord_nil : EndsWord [] := by
  intro c h
  cases h

theorem endsWord_cons {c : Char} (h : isWordBreak c = true) (cs : List Char) :
    EndsWord (c :: cs) := by
  intro d hd
  obtain rfl : c = d := Option.some.inj hd
  exact h

/-- What ends a word goes on ending it with more behind it. -/
theorem EndsWord.append {cs ds : List Char} (h : EndsWord cs) (hd : EndsWord ds) :
    EndsWord (cs ++ ds) := by
  cases cs with
  | nil => exact hd
  | cons c cs => exact h

theorem EndsWord.of_append {cs ds : List Char} (h : EndsWord (cs ++ ds)) : EndsWord cs := by
  cases cs with
  | nil => exact endsWord_nil
  | cons c cs => exact h

theorem ne_of_isBlank {c : Char} (h : Text.isBlank c = true) : c ≠ '(' ∧ c ≠ ')' ∧ c ≠ '"' := by
  refine ⟨?_, ?_, ?_⟩
  · rintro rfl
    cases h
  · rintro rfl
    cases h
  · rintro rfl
    cases h

theorem isWordBreak_eq_false {c : Char} (h : isWordBreak c = false) :
    c ≠ '(' ∧ c ≠ ')' ∧ c ≠ '"' ∧ Text.isBlank c = false := by
  simp only [isWordBreak, Bool.or_eq_false_iff, beq_eq_false_iff_ne] at h
  exact ⟨h.1.1.2, h.1.2, h.2, h.1.1.1⟩

theorem isWordBreak_of_isDigit {c : Char} (h : c.isDigit = true) : isWordBreak c = false := by
  have hblank : Text.isBlank c = false := by
    simp only [Char.isDigit, Bool.and_eq_true, decide_eq_true_eq] at h
    have hlow : 48 ≤ c.toNat := h.1
    have hhigh : c.toNat ≤ 57 := h.2
    simp [Text.isBlank]
    omega
  have h1 : c ≠ '(' := by rintro rfl; cases h
  have h2 : c ≠ ')' := by rintro rfl; cases h
  have h3 : c ≠ '"' := by rintro rfl; cases h
  simp [isWordBreak, hblank, h1, h2, h3]

/-! ## Equations of the cut -/

theorem pieces_nil : pieces [] = [] := rfl

theorem pieces_opening (cs : List Char) : pieces ('(' :: cs) = .opening :: pieces cs := rfl

theorem pieces_closing (cs : List Char) : pieces (')' :: cs) = .closing :: pieces cs := rfl

theorem pieces_blank {c : Char} (h : Text.isBlank c = true) (cs : List Char) :
    pieces (c :: cs) = pieces cs := by
  obtain ⟨h1, h2, h3⟩ := ne_of_isBlank h
  simp only [pieces, cuts_cons, Cuts.push, h1, h2, h3, h, if_true, if_false]
  rfl

theorem cuts_inside_cons {c : Char} (h : c ≠ '"') (cs : List Char) :
    (cuts (c :: cs)).inside = { (cuts cs).inside with run := c :: (cuts cs).inside.run } := by
  simp only [cuts_cons, Cuts.push, h, if_false]

/-- Between quotes every other character goes to the run. -/
theorem cuts_inside_append {s : List Char} (h : '"' ∉ s) (cs : List Char) :
    (cuts (s ++ cs)).inside = { (cuts cs).inside with run := s ++ (cuts cs).inside.run } := by
  induction s with
  | nil => rfl
  | cons c s ih =>
    rw [List.mem_cons, not_or] at h
    rw [List.cons_append, cuts_inside_cons (Ne.symm h.1), ih h.2]
    rfl

/-- A text between quotes is one piece. -/
theorem pieces_text {s : List Char} (h : '"' ∉ s) (cs : List Char) :
    pieces ('"' :: (s ++ '"' :: cs)) = .text s :: pieces cs := by
  show (cuts (s ++ '"' :: cs)).inside.quotedPieces = _
  rw [cuts_inside_append h]
  show Piece.text (s ++ []) :: pieces cs = _
  rw [List.append_nil]

/-- Without a second quote the text runs to the end. -/
theorem pieces_unclosed {s : List Char} (h : '"' ∉ s) : pieces ('"' :: s) = [.unclosed s] := by
  show (cuts s).inside.quotedPieces = _
  have hs := cuts_inside_append h []
  rw [List.append_nil] at hs
  rw [hs]
  show [Piece.unclosed (s ++ [])] = _
  rw [List.append_nil]

theorem cuts_outside_cons {c : Char} (h : isWordBreak c = false) (cs : List Char) :
    (cuts (c :: cs)).outside = { (cuts cs).outside with run := c :: (cuts cs).outside.run } := by
  obtain ⟨h1, h2, h3, h4⟩ := isWordBreak_eq_false h
  simp only [cuts_cons, Cuts.push, h1, h2, h3, h4, Bool.false_eq_true, if_false]

/-- Outside quotes the characters of a word go to the run. -/
theorem cuts_outside_append {w : List Char} (h : ∀ c ∈ w, isWordBreak c = false) (cs : List Char) :
    (cuts (w ++ cs)).outside = { (cuts cs).outside with run := w ++ (cuts cs).outside.run } := by
  induction w with
  | nil => rfl
  | cons c w ih =>
    rw [List.cons_append, cuts_outside_cons (h c List.mem_cons_self),
      ih fun d hd => h d (List.mem_cons_of_mem _ hd)]
    rfl

/-- A break in front leaves the run empty. -/
theorem cuts_outside_run {cs : List Char} (h : EndsWord cs) : (cuts cs).outside.run = [] := by
  cases cs with
  | nil => rfl
  | cons c cs =>
    have hc := h c rfl
    simp only [isWordBreak, Bool.or_eq_true, beq_iff_eq] at hc
    simp only [cuts_cons, Cuts.push]
    split_ifs with h1 h2 h3 h4
    · rfl
    · rfl
    · rfl
    · rfl
    · simp [h1, h2, h3, h4] at hc

/-- A run of word characters is one piece where it can go no further. -/
theorem pieces_word {w : List Char} (hne : w ≠ []) (h : ∀ c ∈ w, isWordBreak c = false)
    {cs : List Char} (hcs : EndsWord cs) : pieces (w ++ cs) = .word w :: pieces cs := by
  have hrun := cuts_outside_run hcs
  rw [pieces, pieces, cuts_outside_append h, Cut.pieces, Cut.pieces, hrun, List.append_nil]
  simp [hne]

/-! ## Spellings -/

/-- The characters are blanks and these pieces, in order. -/
inductive Spelling : List Char → List Piece → Prop where
  | nil : Spelling [] []
  | blank {c : Char} {cs : List Char} {ps : List Piece} (hc : Text.isBlank c = true)
      (rest : Spelling cs ps) : Spelling (c :: cs) ps
  | opening {cs : List Char} {ps : List Piece} (rest : Spelling cs ps) :
      Spelling ('(' :: cs) (.opening :: ps)
  | closing {cs : List Char} {ps : List Piece} (rest : Spelling cs ps) :
      Spelling (')' :: cs) (.closing :: ps)
  | text {s cs : List Char} {ps : List Piece} (hs : '"' ∉ s) (rest : Spelling cs ps) :
      Spelling ('"' :: (s ++ '"' :: cs)) (.text s :: ps)
  | unclosed {s : List Char} (hs : '"' ∉ s) : Spelling ('"' :: s) [.unclosed s]
  | word {w cs : List Char} {ps : List Piece} (hne : w ≠ [])
      (hw : ∀ c ∈ w, isWordBreak c = false) (hcs : EndsWord cs) (rest : Spelling cs ps) :
      Spelling (w ++ cs) (.word w :: ps)

/-- Cutting finds the pieces of any spelling. -/
theorem pieces_of_spelling {cs : List Char} {ps : List Piece} (h : Spelling cs ps) :
    pieces cs = ps := by
  induction h with
  | nil => exact pieces_nil
  | blank hc _ ih => rw [pieces_blank hc, ih]
  | opening _ ih => rw [pieces_opening, ih]
  | closing _ ih => rw [pieces_closing, ih]
  | text hs _ ih => rw [pieces_text hs, ih]
  | unclosed hs => exact pieces_unclosed hs
  | word hne hw hcs _ ih => rw [pieces_word hne hw hcs, ih]

/-- The characters of a word: up to the first break. -/
theorem exists_word {c : Char} (hc : isWordBreak c = false) (cs : List Char) :
    ∃ w rest, c :: cs = w ++ rest ∧ w ≠ [] ∧ (∀ d ∈ w, isWordBreak d = false) ∧ EndsWord rest := by
  refine ⟨(c :: cs).takeWhile (!isWordBreak ·), (c :: cs).dropWhile (!isWordBreak ·),
    List.takeWhile_append_dropWhile.symm, ?_, ?_, ?_⟩
  · rw [List.takeWhile_cons, hc]
    exact List.cons_ne_nil _ _
  · intro d hd
    simpa using List.all_eq_true.1 List.all_takeWhile d hd
  · intro d hd
    have hnot := List.head?_dropWhile_not (!isWordBreak ·) (c :: cs)
    rw [Option.mem_def.1 hd] at hnot
    simpa using hnot

/-- Every text spells its pieces. -/
theorem spelling_pieces (cs : List Char) : Spelling cs (pieces cs) := by
  -- Each rule leaves a shorter text, though not always the tail.
  induction hn : cs.length using Nat.strongRecOn generalizing cs with
  | _ n ih =>
    subst hn
    cases cs with
    | nil => exact .nil
    | cons c cs =>
      have htail : Spelling cs (pieces cs) := ih _ (by simp) cs rfl
      cases hc : isWordBreak c with
      | false =>
        obtain ⟨w, rest, heq, hne, hw, hrest⟩ := exists_word hc cs
        have hlt : rest.length < (c :: cs).length := by
          rw [heq, List.length_append]
          have := List.length_pos_of_ne_nil hne
          omega
        rw [heq, pieces_word hne hw hrest]
        exact .word hne hw hrest (ih _ hlt rest rfl)
      | true =>
        simp only [isWordBreak, Bool.or_eq_true, beq_iff_eq] at hc
        rcases hc with ((hc | rfl) | rfl) | rfl
        · rw [pieces_blank hc]
          exact .blank hc htail
        · exact .opening htail
        · exact .closing htail
        · by_cases hq : '"' ∈ cs
          · obtain ⟨s, rest, rfl, hs⟩ := List.eq_append_cons_of_mem hq
            have hlt : rest.length < ('"' :: (s ++ '"' :: rest)).length := by
              simp only [List.length_cons, List.length_append]
              omega
            rw [pieces_text hs]
            exact .text hs (ih _ hlt rest rfl)
          · rw [pieces_unclosed hq]
            exact .unclosed hq

/-- So a text has the spelling that cutting finds, and no other. -/
theorem spelling_iff {cs : List Char} {ps : List Piece} : Spelling cs ps ↔ pieces cs = ps :=
  ⟨pieces_of_spelling, fun h => h ▸ spelling_pieces cs⟩

/-! ## The first piece -/

/-- The characters of a piece, in front of the characters that follow it. -/
inductive Front : Piece → List Char → List Char → Prop where
  | opening {cs : List Char} : Front .opening ('(' :: cs) cs
  | closing {cs : List Char} : Front .closing (')' :: cs) cs
  | text {s cs : List Char} (hs : '"' ∉ s) : Front (.text s) ('"' :: (s ++ '"' :: cs)) cs
  | unclosed {s : List Char} (hs : '"' ∉ s) : Front (.unclosed s) ('"' :: s) []
  | word {w cs : List Char} (hne : w ≠ []) (hw : ∀ c ∈ w, isWordBreak c = false)
      (hcs : EndsWord cs) : Front (.word w) (w ++ cs) cs

/-- The first piece of a text, with the blanks in front of it. -/
theorem Spelling.exists_front {cs : List Char} {p : Piece} {ps : List Piece}
    (h : Spelling cs (p :: ps)) :
    ∃ b front rest, (∀ c ∈ b, Text.isBlank c = true) ∧ cs = b ++ front ∧ Front p front rest ∧
      Spelling rest ps := by
  generalize hqs : p :: ps = qs at h
  induction h with
  | nil => cases hqs
  | @blank c _ _ hc _ ih =>
    obtain ⟨b, front, rest, hb, rfl, hfront, hrest⟩ := ih hqs
    exact ⟨c :: b, front, rest, List.forall_mem_cons.2 ⟨hc, hb⟩, rfl, hfront, hrest⟩
  | opening hrest =>
    cases hqs
    exact ⟨[], _, _, nofun, rfl, .opening, hrest⟩
  | closing hrest =>
    cases hqs
    exact ⟨[], _, _, nofun, rfl, .closing, hrest⟩
  | text hs hrest =>
    cases hqs
    exact ⟨[], _, _, nofun, rfl, .text hs, hrest⟩
  | unclosed hs =>
    cases hqs
    exact ⟨[], _, _, nofun, rfl, .unclosed hs, .nil⟩
  | word hne hw hcs hrest =>
    cases hqs
    exact ⟨[], _, _, nofun, rfl, .word hne hw hcs, hrest⟩

/-- A text without pieces is blank. -/
theorem Spelling.isBlank_of_nil {cs : List Char} (h : Spelling cs []) :
    ∀ c ∈ cs, Text.isBlank c = true := by
  generalize hqs : [] = qs at h
  induction h with
  | nil => nofun
  | blank hc _ ih => exact List.forall_mem_cons.2 ⟨hc, ih hqs⟩
  | _ => cases hqs

/-! ## Parentheses -/

theorem Balance.foldl_eq_self {b : Balance} {cs : List Char} (h : ∀ c ∈ cs, b.push c = b) :
    cs.foldl Balance.push b = b := by
  induction cs with
  | nil => rfl
  | cons c cs ih =>
    obtain ⟨hc, hcs⟩ := List.forall_mem_cons.1 h
    rw [List.foldl_cons, hc, ih hcs]

theorem Balance.foldl_quoted {b : Balance} (hb : b.quoted = true) {s : List Char} (hs : '"' ∉ s) :
    s.foldl Balance.push b = b := by
  refine foldl_eq_self fun c hc => ?_
  rw [Balance.push, if_neg (ne_of_mem_of_not_mem hc hs), if_pos hb]

theorem Balance.foldl_word (b : Balance) {w : List Char} (hw : ∀ c ∈ w, isWordBreak c = false) :
    w.foldl Balance.push b = b := by
  refine foldl_eq_self fun c hc => ?_
  obtain ⟨h1, h2, h3, -⟩ := isWordBreak_eq_false (hw c hc)
  rw [Balance.push, if_neg h3, if_neg h1, if_neg h2, ite_self]

/-- Counting the characters counts the opening and the closing pieces, and a quote is open at the
end if there is a piece that is not closed. -/
theorem Balance.foldl_spelling {cs : List Char} {ps : List Piece} (h : Spelling cs ps) :
    ∀ b : Balance, b.quoted = false →
      (cs.foldl Balance.push b).opened = b.opened + ps.count .opening ∧
        (cs.foldl Balance.push b).closed = b.closed + ps.count .closing ∧
        ((cs.foldl Balance.push b).quoted = true ↔ ∃ s, .unclosed s ∈ ps) := by
  induction h with
  | nil =>
    intro b hb
    exact ⟨rfl, rfl, by simp [hb]⟩
  | @blank c cs ps hc _ ih =>
    intro b hb
    have hpush : b.push c = b := by
      obtain ⟨h1, h2, h3⟩ := ne_of_isBlank hc
      rw [Balance.push, if_neg h3, if_neg h1, if_neg h2, ite_self]
    rw [List.foldl_cons, hpush]
    exact ih b hb
  | opening _ ih =>
    intro b hb
    have hpush : b.push '(' = { b with opened := b.opened + 1 } := by simp [Balance.push, hb]
    obtain ⟨ho, hc, hq⟩ := ih { b with opened := b.opened + 1 } hb
    rw [List.foldl_cons, hpush, ho, hc, hq]
    exact ⟨by simp; omega, by simp, by simp⟩
  | closing _ ih =>
    intro b hb
    have hpush : b.push ')' = { b with closed := b.closed + 1 } := by simp [Balance.push, hb]
    obtain ⟨ho, hc, hq⟩ := ih { b with closed := b.closed + 1 } hb
    rw [List.foldl_cons, hpush, ho, hc, hq]
    exact ⟨by simp, by simp; omega, by simp⟩
  | @text s cs ps hs _ ih =>
    intro b hb
    have hopen : b.push '"' = { b with quoted := true } := by simp [Balance.push, hb]
    have hclose : Balance.push { b with quoted := true } '"' = b := by simp [Balance.push, ← hb]
    rw [List.foldl_cons, hopen, List.foldl_append, Balance.foldl_quoted rfl hs, List.foldl_cons,
      hclose]
    simpa using ih b hb
  | @unclosed s hs =>
    intro b hb
    have hopen : b.push '"' = { b with quoted := true } := by simp [Balance.push, hb]
    rw [List.foldl_cons, hopen, Balance.foldl_quoted rfl hs]
    exact ⟨rfl, rfl, fun _ => ⟨s, List.mem_cons_self⟩, fun _ => rfl⟩
  | word _ hw _ _ ih =>
    intro b hb
    rw [List.foldl_append, Balance.foldl_word b hw]
    simpa using ih b hb

/-- A text is balanced if it has as many opening as closing pieces. -/
theorem isBalanced_iff (cs : List Char) :
    isBalanced cs = true ↔ (pieces cs).count .opening = (pieces cs).count .closing := by
  obtain ⟨ho, hc, -⟩ := Balance.foldl_spelling (spelling_pieces cs) {} rfl
  simp only [isBalanced, ho, hc, beq_iff_eq, Nat.zero_add]

end SmallLisp
