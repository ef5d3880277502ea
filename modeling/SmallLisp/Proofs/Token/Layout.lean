import SmallLisp.Proofs.Token.Balance

/-!
# Layout

Tokens can be written down again: their texts in order, those of strings between quotes, with blanks
in front of the first and after each.  A *layout* is a choice of these blanks.  It leaves none out
between two words, which would run together, and may leave them out everywhere else.

The tokens of a text are the tokens of each of their layouts (`tokenize_layout`).  The pieces of the
text carry over: every piece is of the form that its token is written in (`Piece.Sound`), so the
layout spells the same pieces (`Layout.spelling`), and as many of them open as close.
-/

namespace SmallLisp

/-! ## Writing tokens -/

/-- Whether a token is a word: an integer, a float or a symbol. -/
def Token.isWord (t : Token) : Bool :=
  match t.kind with
  | .integer _ | .float _ | .symbol => true
  | .openList | .closeList | .string | .invalid => false

/-- The characters of a token: its text, between quotes if it is a string. -/
def Token.chars (t : Token) : List Char :=
  match t.kind with
  | .string => '"' :: (t.text.toList ++ ['"'])
  | _ => t.text.toList

/-- Tokens one after the other, each with the gap that follows it. -/
def writeOut : List (Token × List Char) → List Char
  | [] => []
  | (t, gap) :: rest => t.chars ++ (gap ++ writeOut rest)

/-- The characters are blanks. -/
def Blank (cs : List Char) : Prop :=
  ∀ c ∈ cs, Text.isBlank c = true

instance : DecidablePred Blank :=
  fun cs => decidable_of_iff (cs.all Text.isBlank = true) List.all_eq_true

/-- Between two words there is a gap. -/
def Separated (written : List (Token × List Char)) : Prop :=
  written.IsChain fun p q => p.1.isWord = true → q.1.isWord = true → p.2 ≠ []

instance : DecidablePred Separated :=
  fun written => inferInstanceAs (Decidable (written.IsChain _))

/-- A way to write tokens down. -/
structure Layout (ts : List Token) where
  /-- The gap in front of the first token. -/
  before : List Char
  /-- The tokens, each with the gap after it. -/
  written : List (Token × List Char)
  tokens : written.map Prod.fst = ts
  blank_before : Blank before
  blank_after : ∀ p ∈ written, Blank p.2
  separated : Separated written

/-- The text that a layout writes. -/
def Layout.text {ts : List Token} (l : Layout ts) : List Char :=
  l.before ++ writeOut l.written

/-! ## Pieces of tokens -/

/-- The piece is one that a text can be cut into. -/
def Piece.Sound : Piece → Prop
  | opening | closing => True
  | word w => w ≠ [] ∧ ∀ c ∈ w, isWordBreak c = false
  | text s | unclosed s => '"' ∉ s

theorem Spelling.sound {cs : List Char} {ps : List Piece} (h : Spelling cs ps) :
    ∀ p ∈ ps, p.Sound := by
  induction h with
  | nil => nofun
  | blank _ _ ih => exact ih
  | opening _ ih => exact List.forall_mem_cons.2 ⟨trivial, ih⟩
  | closing _ ih => exact List.forall_mem_cons.2 ⟨trivial, ih⟩
  | text hs _ ih => exact List.forall_mem_cons.2 ⟨hs, ih⟩
  | unclosed hs => exact List.forall_mem_cons.2 ⟨hs, nofun⟩
  | word hne hw _ _ ih => exact List.forall_mem_cons.2 ⟨⟨hne, hw⟩, ih⟩

theorem Spelling.blanks {b cs : List Char} {ps : List Piece} (hb : Blank b)
    (h : Spelling cs ps) : Spelling (b ++ cs) ps := by
  induction b with
  | nil => exact h
  | cons c b ih =>
    obtain ⟨hc, hb⟩ := List.forall_mem_cons.1 hb
    exact .blank hc (ih hb)

/-- The token of a word is a word, and is written as the word was. -/
theorem wordToken_chars {w : List Char} {t : Token} (h : wordToken w = .ok t) :
    t.isWord = true ∧ t.chars = w := by
  rcases wordToken_cases h with ⟨-, n, -, rfl⟩ | ⟨-, -, x, -, rfl⟩ | ⟨-, rfl⟩ <;>
    exact ⟨rfl, String.toList_ofList⟩

/-- A token written in front of a text adds its piece.  A word needs a break after it. -/
theorem Spelling.token {p : Piece} {t : Token} (ht : p.token = .ok t) (hp : p.Sound)
    {cs : List Char} {ps : List Piece} (hcs : t.isWord = true → EndsWord cs)
    (h : Spelling cs ps) : Spelling (t.chars ++ cs) (p :: ps) := by
  cases p with
  | opening =>
    cases ht
    exact .opening h
  | closing =>
    cases ht
    exact .closing h
  | text s =>
    cases ht
    have hchars : Token.chars ⟨.string, String.ofList s⟩ ++ cs = '"' :: (s ++ '"' :: cs) := by
      simp [Token.chars]
    rw [hchars]
    exact .text hp h
  | unclosed s => cases ht
  | word w =>
    obtain ⟨hword, hchars⟩ := wordToken_chars ht
    rw [hchars]
    exact .word hp.1 hp.2 (hcs hword) h

/-- A token that is no word starts with a break. -/
theorem endsWord_chars {p : Piece} {t : Token} (ht : p.token = .ok t) (hword : t.isWord ≠ true)
    (cs : List Char) : EndsWord (t.chars ++ cs) := by
  cases p with
  | opening =>
    cases ht
    exact endsWord_cons rfl _
  | closing =>
    cases ht
    exact endsWord_cons rfl _
  | text s =>
    cases ht
    exact endsWord_cons rfl _
  | unclosed s => cases ht
  | word w => exact absurd (wordToken_chars ht).1 hword

theorem EndsWord.of_blank {b : List Char} (hb : Blank b) (hne : b ≠ []) (cs : List Char) :
    EndsWord (b ++ cs) := by
  obtain ⟨c, b, rfl⟩ := List.exists_cons_of_ne_nil hne
  refine endsWord_cons ?_ _
  simp [isWordBreak, hb c List.mem_cons_self]

/-! ## Layouts -/

/-- After a word comes a break: the gap or, where there is none, a token that is no word. -/
theorem endsWord_gap {gap : List Char} (hgap : Blank gap) {ps : List Piece}
    {written : List (Token × List Char)} (htokens : Tokens ps (written.map Prod.fst))
    (hnext : ∀ q ∈ written.head?, q.1.isWord = true → gap ≠ []) :
    EndsWord (gap ++ writeOut written) := by
  by_cases hne : gap = []
  · subst hne
    cases written with
    | nil => exact endsWord_nil
    | cons q rest =>
      obtain ⟨p, _, hq, -, -⟩ := List.forall₂_cons_right_iff.1 htokens
      exact endsWord_chars hq (fun hword => hnext q rfl hword rfl) _
  · exact .of_blank hgap hne _

/-- Writing the tokens of pieces spells the pieces. -/
theorem spelling_writeOut {ps : List Piece} (hps : ∀ p ∈ ps, p.Sound) :
    ∀ {written : List (Token × List Char)}, Tokens ps (written.map Prod.fst) →
      (∀ p ∈ written, Blank p.2) → Separated written → Spelling (writeOut written) ps := by
  induction ps with
  | nil =>
    intro written htokens _ _
    obtain rfl : written = [] := List.map_eq_nil_iff.1 (List.forall₂_nil_left_iff.1 htokens)
    exact .nil
  | cons p ps ih =>
    intro written htokens hblank hseparated
    cases written with
    | nil => cases htokens
    | cons q rest =>
      obtain ⟨t, gap⟩ := q
      obtain ⟨ht, hrest⟩ := List.forall₂_cons.1 htokens
      obtain ⟨hp, hps⟩ := List.forall_mem_cons.1 hps
      obtain ⟨hgap, hgaps⟩ := List.forall_mem_cons.1 hblank
      obtain ⟨hnext, hlater⟩ := List.isChain_cons.1 hseparated
      have hspelling := ih hps hrest hgaps hlater
      refine Spelling.token ht hp (fun hword => ?_) (hspelling.blanks hgap)
      exact endsWord_gap hgap hrest fun q hq => hnext q hq hword

/-- A layout of the tokens of a text spells the pieces of the text. -/
theorem Layout.spelling {cs : List Char} {ts : List Token} (h : Tokens (pieces cs) ts)
    (l : Layout ts) : Spelling l.text (pieces cs) := by
  obtain ⟨before, written, rfl, hbefore, hafter, hseparated⟩ := l
  exact (spelling_writeOut (spelling_pieces cs).sound h hafter hseparated).blanks hbefore

/-- The tokens of a text do not depend on its layout: however they are written down again, the bytes
of what is written have the same tokens. -/
theorem tokenize_layout {bytes : List UInt8} {ts : List Token} (h : tokenize bytes = .ok ts)
    (l : Layout ts) (hmark : l.text.head? ≠ some Text.byteOrderMark) :
    tokenize (Text.encode l.text) = .ok ts := by
  obtain ⟨hbalanced, htokens⟩ := tokens_of_tokenizeText h
  have hdecode : Text.decode (Text.encode l.text) = l.text := by
    rw [Text.decode, Text.decodeAll_encode, Text.dropMark_of_head? hmark]
  have hpieces : pieces l.text = pieces (Text.decode bytes) := pieces_of_spelling (l.spelling htokens)
  have hbalanced' : isBalanced l.text = true := by
    rw [isBalanced_iff, hpieces]
    exact (isBalanced_iff _).1 hbalanced
  rw [tokenize, hdecode, tokenizeText, if_pos hbalanced', hpieces]
  exact mapM_token_eq_ok_iff.2 htokens

/-- A form with a text and four words, two of them numbers, with a line break between each two
tokens. -/
def spacious : List UInt8 :=
  Text.bytesOf "(\n-\n\"a (b\"\nx\n-150\n+7\n)"

/-- The tokens of `spacious`, with gaps only where two words meet. -/
def tight : Layout
    [⟨.openList, "("⟩, ⟨.symbol, "-"⟩, ⟨.string, "a (b"⟩, ⟨.symbol, "x"⟩, ⟨.integer (-150), "-150"⟩,
      ⟨.integer 7, "+7"⟩, ⟨.closeList, ")"⟩] where
  before := []
  written :=
    [(⟨.openList, "("⟩, []), (⟨.symbol, "-"⟩, []), (⟨.string, "a (b"⟩, []), (⟨.symbol, "x"⟩, [' ']),
      (⟨.integer (-150), "-150"⟩, ['\u3000']), (⟨.integer 7, "+7"⟩, []), (⟨.closeList, ")"⟩, [])]
  tokens := rfl
  blank_before := nofun
  blank_after := by decide
  separated := by decide

theorem spacious_tight :
    tokenize spacious = .ok
        [⟨.openList, "("⟩, ⟨.symbol, "-"⟩, ⟨.string, "a (b"⟩, ⟨.symbol, "x"⟩,
          ⟨.integer (-150), "-150"⟩, ⟨.integer 7, "+7"⟩, ⟨.closeList, ")"⟩] ∧
      tight.text = "(-\"a (b\"x -150\u3000+7)".toList ∧
      tokenize (Text.encode tight.text) = tokenize spacious := by
  have htokens : tokenize spacious = .ok
      [⟨.openList, "("⟩, ⟨.symbol, "-"⟩, ⟨.string, "a (b"⟩, ⟨.symbol, "x"⟩,
        ⟨.integer (-150), "-150"⟩, ⟨.integer 7, "+7"⟩, ⟨.closeList, ")"⟩] := by rfl
  refine ⟨htokens, rfl, ?_⟩
  rw [htokens]
  exact tokenize_layout htokens tight (by decide)

end SmallLisp
