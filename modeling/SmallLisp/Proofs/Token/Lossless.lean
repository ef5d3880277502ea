import SmallLisp.Proofs.Token.Layout

/-!
# Tokens and their text

Scanning loses no character and makes none up.  Tokens written one after the other, strings between
quotes, are the text without the blanks outside quotes.  `condense` takes these blanks away, and
looks at the quotes alone to tell where they are.

Where the tokens stand in the text can be told from the text.  It is one of the layouts of its
tokens (`Spelling.exists_layout`), and since no token starts with a blank there is only one way to
find them in it with nothing but blanks around them (`Places.unique`).  In this layout words never
touch, so each of them is a longest run of characters that are no breaks (`Layout.wordsMaximal`).
-/

namespace SmallLisp

/-! ## Texts without blanks -/

/-- The text without the blanks outside quotes.  The flag says whether a quote is open in front. -/
def condense (quoted : Bool) : List Char → List Char
  | [] => []
  | c :: cs =>
    if c = '"' then c :: condense (!quoted) cs
    else if !quoted && Text.isBlank c then condense quoted cs
    else c :: condense quoted cs

theorem condense_blanks {b : List Char} (hb : Blank b) (cs : List Char) :
    condense false (b ++ cs) = condense false cs := by
  induction b with
  | nil => rfl
  | cons c b ih =>
    obtain ⟨hc, hb⟩ := List.forall_mem_cons.1 hb
    rw [← ih hb]
    simp [condense, hc, (ne_of_isBlank hc).2.2]

theorem condense_word {w : List Char} (hw : ∀ c ∈ w, isWordBreak c = false) (cs : List Char) :
    condense false (w ++ cs) = w ++ condense false cs := by
  induction w with
  | nil => rfl
  | cons c w ih =>
    obtain ⟨hc, hw⟩ := List.forall_mem_cons.1 hw
    obtain ⟨-, -, hquote, hblank⟩ := isWordBreak_eq_false hc
    rw [List.cons_append, List.cons_append, ← ih hw]
    simp [condense, hquote, hblank]

theorem condense_quoted {s : List Char} (hs : '"' ∉ s) (cs : List Char) :
    condense true (s ++ '"' :: cs) = s ++ '"' :: condense false cs := by
  induction s with
  | nil => rfl
  | cons c s ih =>
    rw [List.mem_cons, not_or] at hs
    rw [List.cons_append, List.cons_append, ← ih hs.2]
    simp [condense, Ne.symm hs.1]

/-! ## Tokens that a text can have -/

/-- The token is one that a text can have. -/
def Token.Sound (t : Token) : Prop :=
  ∃ p : Piece, p.Sound ∧ p.token = .ok t

theorem Tokens.sound {ps : List Piece} {ts : List Token} (h : Tokens ps ts)
    (hps : ∀ p ∈ ps, p.Sound) : ∀ t ∈ ts, t.Sound := by
  induction h with
  | nil => nofun
  | @cons p t ps ts ht _ ih =>
    obtain ⟨hp, hps⟩ := List.forall_mem_cons.1 hps
    exact List.forall_mem_cons.2 ⟨⟨p, hp, ht⟩, ih hps⟩

namespace Token.Sound

variable {t : Token}

/-- The characters of a word go on a word. -/
theorem word (h : t.Sound) (hword : t.isWord = true) :
    t.chars ≠ [] ∧ ∀ c ∈ t.chars, isWordBreak c = false := by
  obtain ⟨p, hp, ht⟩ := h
  cases p with
  | word w =>
    rw [(wordToken_chars ht).2]
    exact hp
  | _ => cases ht <;> cases hword

/-- Any other token starts and ends with a break. -/
theorem breaks (h : t.Sound) (hword : t.isWord ≠ true) :
    ∃ c cs d ds, t.chars = c :: cs ∧ t.chars = ds ++ [d] ∧ Text.isBlank c = false ∧
      isWordBreak d = true := by
  obtain ⟨p, hp, ht⟩ := h
  cases p with
  | opening =>
    cases ht
    exact ⟨'(', [], '(', [], rfl, rfl, rfl, rfl⟩
  | closing =>
    cases ht
    exact ⟨')', [], ')', [], rfl, rfl, rfl, rfl⟩
  | text s =>
    cases ht
    exact ⟨'"', _, '"', '"' :: _, rfl, rfl, rfl, rfl⟩
  | unclosed s => cases ht
  | word w => exact absurd (wordToken_chars ht).1 hword

/-- No token starts with a blank. -/
theorem exists_head (h : t.Sound) : ∃ c cs, t.chars = c :: cs ∧ Text.isBlank c = false := by
  by_cases hword : t.isWord = true
  · obtain ⟨hne, hchars⟩ := h.word hword
    obtain ⟨c, cs, hcs⟩ := List.exists_cons_of_ne_nil hne
    refine ⟨c, cs, hcs, (isWordBreak_eq_false (hchars c ?_)).2.2.2⟩
    rw [hcs]
    exact List.mem_cons_self
  · obtain ⟨c, cs, -, -, hcs, -, hc, -⟩ := h.breaks hword
    exact ⟨c, cs, hcs, hc⟩

/-- The characters of a token are kept. -/
theorem condense_chars (h : t.Sound) (cs : List Char) :
    condense false (t.chars ++ cs) = t.chars ++ condense false cs := by
  obtain ⟨p, hp, ht⟩ := h
  cases p with
  | opening =>
    cases ht
    rfl
  | closing =>
    cases ht
    rfl
  | text s =>
    cases ht
    have hchars (cs : List Char) :
        Token.chars ⟨.string, String.ofList s⟩ ++ cs = '"' :: (s ++ '"' :: cs) := by
      simp [Token.chars]
    rw [hchars, hchars, ← condense_quoted hp]
    rfl
  | unclosed s => cases ht
  | word w =>
    rw [(wordToken_chars ht).2]
    exact condense_word hp.2 cs

end Token.Sound

/-! ## The text is a layout -/

theorem blank_nil : Blank [] := by
  intro c hc
  cases hc

/-- The layout of no tokens in an empty text. -/
def Layout.empty : Layout [] where
  before := []
  written := []
  tokens := rfl
  blank_before := blank_nil
  blank_after := List.forall_mem_nil _
  separated := .nil

/-- The layout with one more token in front.  Two words do not touch. -/
def Layout.push {ts : List Token} (l : Layout ts) (t : Token)
    (h : ∀ q ∈ ts.head?, t.isWord = true → q.isWord = true → l.before ≠ []) :
    Layout (t :: ts) where
  before := []
  written := (t, l.before) :: l.written
  tokens := by rw [List.map_cons, l.tokens]
  blank_before := blank_nil
  blank_after := List.forall_mem_cons.2 ⟨l.blank_before, l.blank_after⟩
  separated := by
    refine List.isChain_cons.2 ⟨fun q hq => h q.1 ?_, l.separated⟩
    rw [← l.tokens, List.head?_map, Option.mem_def.1 hq]
    rfl

theorem Layout.text_push {ts : List Token} (l : Layout ts) (t : Token)
    (h : ∀ q ∈ ts.head?, t.isWord = true → q.isWord = true → l.before ≠ []) :
    (l.push t h).text = t.chars ++ l.text :=
  rfl

/-- A token that is no word can stand in front without a gap. -/
theorem Layout.exists_push {ts : List Token} (l : Layout ts) {t : Token} (ht : t.isWord = false) :
    ∃ l' : Layout (t :: ts), l'.text = t.chars ++ l.text :=
  ⟨l.push t fun _ _ hword => absurd (ht.symm.trans hword) Bool.false_ne_true, l.text_push t _⟩

/-- Where a break comes first, a word is not first. -/
theorem Layout.before_ne_nil {ts : List Token} (l : Layout ts) (hts : ∀ t ∈ ts, t.Sound)
    (hbreak : EndsWord l.text) {q : Token} (hq : q ∈ ts.head?) (hword : q.isWord = true) :
    l.before ≠ [] := by
  intro hbefore
  obtain ⟨hne, hchars⟩ := (hts q (List.mem_of_head? hq)).word hword
  obtain ⟨c, cs, hcs⟩ := List.exists_cons_of_ne_nil hne
  have htext : c ∈ l.text.head? := by
    have htokens := l.tokens
    rw [Layout.text, hbefore, List.nil_append]
    cases hw : l.written with
    | nil =>
      rw [hw] at htokens
      rw [← htokens] at hq
      cases hq
    | cons p rest =>
      rw [hw, List.map_cons] at htokens
      rw [← htokens] at hq
      cases hq
      rw [writeOut, hcs]
      rfl
  have hc := hchars c (hcs ▸ List.mem_cons_self)
  rw [hbreak c htext] at hc
  cases hc

/-- A text that has tokens is one of their layouts. -/
theorem Spelling.exists_layout {cs : List Char} {ps : List Piece} (h : Spelling cs ps) :
    ∀ {ts : List Token}, Tokens ps ts → ∃ l : Layout ts, l.text = cs := by
  induction h with
  | nil =>
    intro ts hts
    cases hts
    exact ⟨.empty, rfl⟩
  | @blank c cs ps hc _ ih =>
    intro ts hts
    obtain ⟨l, rfl⟩ := ih hts
    exact ⟨{ l with
      before := c :: l.before
      blank_before := List.forall_mem_cons.2 ⟨hc, l.blank_before⟩ }, rfl⟩
  | opening _ ih =>
    intro ts hts
    obtain ⟨t, rest, ht, hrest, rfl⟩ := List.forall₂_cons_left_iff.1 hts
    obtain ⟨l, rfl⟩ := ih hrest
    cases ht
    exact l.exists_push rfl
  | closing _ ih =>
    intro ts hts
    obtain ⟨t, rest, ht, hrest, rfl⟩ := List.forall₂_cons_left_iff.1 hts
    obtain ⟨l, rfl⟩ := ih hrest
    cases ht
    exact l.exists_push rfl
  | @text s _ _ _ _ ih =>
    intro ts hts
    obtain ⟨t, rest, ht, hrest, rfl⟩ := List.forall₂_cons_left_iff.1 hts
    obtain ⟨l, rfl⟩ := ih hrest
    cases ht
    obtain ⟨l', hl'⟩ := l.exists_push (t := ⟨.string, String.ofList s⟩) rfl
    exact ⟨l', by simp [hl', Token.chars]⟩
  | unclosed _ =>
    intro ts hts
    obtain ⟨t, rest, ht, -, -⟩ := List.forall₂_cons_left_iff.1 hts
    cases ht
  | word _ _ hcs hspelling ih =>
    intro ts hts
    obtain ⟨t, rest, ht, hrest, rfl⟩ := List.forall₂_cons_left_iff.1 hts
    obtain ⟨l, rfl⟩ := ih hrest
    have hsound := Tokens.sound hrest hspelling.sound
    refine ⟨l.push t fun q hq _ hword => l.before_ne_nil hsound hcs hq hword, ?_⟩
    rw [Layout.text_push, (wordToken_chars ht).2]

theorem condense_writeOut {written : List (Token × List Char)} (hts : ∀ p ∈ written, p.1.Sound)
    (hblank : ∀ p ∈ written, Blank p.2) :
    condense false (writeOut written) = (written.map Prod.fst).flatMap Token.chars := by
  induction written with
  | nil => rfl
  | cons p written ih =>
    obtain ⟨t, gap⟩ := p
    obtain ⟨ht, hts⟩ := List.forall_mem_cons.1 hts
    obtain ⟨hgap, hblank⟩ := List.forall_mem_cons.1 hblank
    rw [writeOut, ht.condense_chars, condense_blanks hgap, ih hts hblank, List.map_cons,
      List.flatMap_cons]

/-- Without the blanks outside quotes, a layout is its tokens one after the other. -/
theorem Layout.condense_text {ts : List Token} (l : Layout ts) (hts : ∀ t ∈ ts, t.Sound) :
    condense false l.text = ts.flatMap Token.chars := by
  obtain ⟨before, written, rfl, hbefore, hafter, -⟩ := l
  rw [Layout.text, condense_blanks hbefore, condense_writeOut (List.forall_mem_map.1 hts) hafter]

/-! ## There is no other -/

/-- The text is these tokens in order, with a gap in front of the first and after each. -/
structure Places (ts : List Token) (cs before : List Char) (written : List (Token × List Char)) :
    Prop where
  tokens : written.map Prod.fst = ts
  blank_before : Blank before
  blank_after : ∀ p ∈ written, Blank p.2
  text : before ++ writeOut written = cs

/-- The blanks in front of another character are all blanks in front. -/
theorem takeWhile_isBlank {b : List Char} (hb : Blank b) {c : Char} (hc : Text.isBlank c = false)
    (cs : List Char) : (b ++ c :: cs).takeWhile Text.isBlank = b := by
  rw [List.takeWhile_append_of_pos hb, List.takeWhile_cons, hc]
  simp

/-- Tokens can be found in a text in one way. -/
theorem Places.unique {ts : List Token} (hts : ∀ t ∈ ts, t.Sound) :
    ∀ {cs b b' : List Char} {w w' : List (Token × List Char)}, Places ts cs b w →
      Places ts cs b' w' → b' = b ∧ w' = w := by
  induction ts with
  | nil =>
    rintro cs b b' w w' ⟨htokens, -, -, rfl⟩ ⟨htokens', -, -, htext⟩
    obtain rfl := List.map_eq_nil_iff.1 htokens
    obtain rfl := List.map_eq_nil_iff.1 htokens'
    exact ⟨by simpa [writeOut] using htext, rfl⟩
  | cons t ts ih =>
    rintro cs b b' w w' ⟨htokens, hb, hafter, rfl⟩ ⟨htokens', hb', hafter', htext⟩
    obtain ⟨ht, hlater⟩ := List.forall_mem_cons.1 hts
    obtain ⟨⟨t₁, gap⟩, rest, rfl, heq, hrest⟩ := List.map_eq_cons_iff.1 htokens
    obtain ⟨⟨t₂, gap'⟩, rest', rfl, heq', hrest'⟩ := List.map_eq_cons_iff.1 htokens'
    obtain rfl : t₁ = t := heq
    obtain rfl : t₂ = t₁ := heq'
    obtain ⟨hgap, hafter⟩ := List.forall_mem_cons.1 hafter
    obtain ⟨hgap', hafter'⟩ := List.forall_mem_cons.1 hafter'
    obtain ⟨c, chars, hchars, hc⟩ := ht.exists_head
    -- Both first gaps end where the first token starts.
    obtain rfl : b' = b := by
      have hwhile := congrArg (List.takeWhile Text.isBlank) htext
      simp only [writeOut, hchars, List.cons_append] at hwhile
      rwa [takeWhile_isBlank hb' hc, takeWhile_isBlank hb hc] at hwhile
    simp only [writeOut, List.append_cancel_left_eq] at htext
    obtain ⟨rfl, rfl⟩ := ih hlater ⟨hrest, hgap, hafter, rfl⟩ ⟨hrest', hgap', hafter', htext⟩
    exact ⟨rfl, rfl⟩

theorem Layout.places {ts : List Token} (l : Layout ts) : Places ts l.text l.before l.written :=
  ⟨l.tokens, l.blank_before, l.blank_after, rfl⟩

/-! ## Words are longest runs -/

/-- Between these characters the word is as long as it can be: its own characters are no breaks, and
a break or nothing is on either side. -/
structure MaximalRun (before word after : List Char) : Prop where
  ne_nil : word ≠ []
  chars : ∀ c ∈ word, isWordBreak c = false
  left : EndsWord before.reverse
  right : EndsWord after

/-- Every word stands as a maximal run in the text. -/
def Layout.WordsMaximal {ts : List Token} (l : Layout ts) : Prop :=
  ∀ front t gap rest, l.written = front ++ (t, gap) :: rest → t.isWord = true →
    MaximalRun (l.before ++ writeOut front) t.chars (gap ++ writeOut rest)

theorem writeOut_append (a b : List (Token × List Char)) :
    writeOut (a ++ b) = writeOut a ++ writeOut b := by
  induction a with
  | nil => rfl
  | cons p a ih => rw [List.cons_append, writeOut, ih, writeOut]; simp

theorem endsWord_reverse_blank (cs : List Char) {b : List Char} (hb : Blank b) (hne : b ≠ []) :
    EndsWord (cs ++ b).reverse := by
  rw [List.reverse_append]
  exact .of_blank (fun c hc => hb c (List.mem_reverse.1 hc)) (List.reverse_ne_nil_iff.2 hne) _

/-- A word follows a break: the gap in front of it or, where there is none, a token that is no
word. -/
theorem Layout.left_of_word {ts : List Token} (l : Layout ts) (hts : ∀ t ∈ ts, t.Sound)
    {front rest : List (Token × List Char)} {t : Token} {gap : List Char}
    (h : l.written = front ++ (t, gap) :: rest) (hword : t.isWord = true) :
    EndsWord (l.before ++ writeOut front).reverse := by
  rcases List.eq_nil_or_concat front with rfl | ⟨front, ⟨t', gap'⟩, rfl⟩
  · rw [writeOut, List.append_nil]
    by_cases hne : l.before = []
    · rw [hne]
      exact endsWord_nil
    · exact endsWord_reverse_blank [] l.blank_before hne
  · rw [List.concat_eq_append, List.append_assoc, List.singleton_append] at h
    have hsep := l.separated
    rw [Separated, h, List.isChain_append_cons_cons] at hsep
    have hmem : (t', gap') ∈ l.written := by simp [h]
    have hlast : l.before ++ writeOut (front.concat (t', gap')) =
        l.before ++ writeOut front ++ t'.chars ++ gap' := by
      simp [List.concat_eq_append, writeOut_append, writeOut]
    rw [hlast]
    by_cases hne : gap' = []
    · have hnot : t'.isWord ≠ true := fun hword' => hsep.2.1 hword' hword hne
      have hsound := hts t' (l.tokens ▸ List.mem_map_of_mem hmem)
      obtain ⟨-, -, d, ds, -, hds, -, hd⟩ := hsound.breaks hnot
      rw [hne, hds, List.append_nil, ← List.append_assoc, List.reverse_append]
      exact endsWord_cons hd _
    · exact endsWord_reverse_blank _ (l.blank_after _ hmem) hne

/-- A word is followed by a break: the gap after it or, where there is none, a token that is no
word. -/
theorem Layout.right_of_word {ts : List Token} (l : Layout ts) (hts : ∀ t ∈ ts, t.Sound)
    {front rest : List (Token × List Char)} {t : Token} {gap : List Char}
    (h : l.written = front ++ (t, gap) :: rest) (hword : t.isWord = true) :
    EndsWord (gap ++ writeOut rest) := by
  have hmem : (t, gap) ∈ l.written := by simp [h]
  by_cases hne : gap = []
  · subst hne
    cases rest with
    | nil => exact endsWord_nil
    | cons q rest =>
      have hsep := l.separated
      rw [Separated, h, List.isChain_append_cons_cons] at hsep
      have hnot : q.1.isWord ≠ true := fun hword' => hsep.2.1 hword hword' rfl
      have hq : q ∈ l.written := by simp [h]
      obtain ⟨p, -, hp⟩ := hts q.1 (l.tokens ▸ List.mem_map_of_mem hq)
      exact endsWord_chars hp hnot _
  · exact .of_blank (l.blank_after _ hmem) hne _

theorem Layout.wordsMaximal {ts : List Token} (l : Layout ts) (hts : ∀ t ∈ ts, t.Sound) :
    l.WordsMaximal := by
  intro front t gap rest h hword
  have hmem : (t, gap) ∈ l.written := by simp [h]
  obtain ⟨hne, hchars⟩ := (hts t (l.tokens ▸ List.mem_map_of_mem hmem)).word hword
  exact ⟨hne, hchars, l.left_of_word hts h hword, l.right_of_word hts h hword⟩

/-! ## The law -/

/-- Scanning loses no character and makes none up.  The tokens of a text, written one after the
other, are the text without the blanks outside quotes.  The text is a layout of them, which leaves a
gap between two words, so that each word is a maximal run, and they can be found in it in no other
way. -/
theorem tokenize_lossless {bytes : List UInt8} {cs : List Char} (hcs : Text.Spelled bytes cs)
    {ts : List Token} (h : tokenize bytes = .ok ts) :
    ts.flatMap Token.chars = condense false (Text.dropMark cs) ∧
      ∃ l : Layout ts, l.text = Text.dropMark cs ∧ Separated l.written ∧ l.WordsMaximal ∧
        ∀ before written, Places ts (Text.dropMark cs) before written →
          before = l.before ∧ written = l.written := by
  have hdecode : Text.decode bytes = Text.dropMark cs := by
    rw [Text.decode, Text.spelled_iff.1 hcs]
  rw [tokenize, hdecode] at h
  obtain ⟨-, htokens⟩ := tokens_of_tokenizeText h
  have hspelling := spelling_pieces (Text.dropMark cs)
  have hsound := Tokens.sound htokens hspelling.sound
  obtain ⟨l, hl⟩ := hspelling.exists_layout htokens
  rw [← hl]
  exact ⟨(l.condense_text hsound).symm, l, rfl, l.separated, l.wordsMaximal hsound,
    fun before written hplaces => l.places.unique hsound hplaces⟩

/-- A text after a byte order mark, with a stray byte at the end of a word. -/
def marked : List UInt8 :=
  [0xEF, 0xBB, 0xBF] ++ Text.bytesOf "(a\"b  c\"-1 \u3000x" ++ [0xFF] ++ Text.bytesOf " )"

theorem marked_lossless :
    ∃ ts, tokenize marked = .ok ts ∧
      ts.map Token.text = ["(", "a", "b  c", "-1", "x\uFFFD", ")"] ∧
      "(a\"b  c\"-1x\uFFFD)".toList = condense false "(a\"b  c\"-1 \u3000x\uFFFD )".toList ∧
      ∃ l : Layout ts, l.text = "(a\"b  c\"-1 \u3000x\uFFFD )".toList ∧ l.WordsMaximal := by
  have hspelled : Text.Spelled marked
      (Text.byteOrderMark :: "(a\"b  c\"-1 \u3000x\uFFFD )".toList) := Text.spelled_iff.2 rfl
  obtain ⟨hchars, l, htext, -, hmaximal, -⟩ := tokenize_lossless hspelled rfl
  exact ⟨_, rfl, rfl, hchars, l, htext, hmaximal⟩

end SmallLisp
