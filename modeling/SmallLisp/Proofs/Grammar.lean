import Mathlib.Data.List.Forall2
import SmallLisp.Proofs.Reader
import SmallLisp.Proofs.Text.Utf8
import SmallLisp.Proofs.Token.Piece

/-!
# The grammar of programs

A program is one list with blanks around it.  `Items cs vs` says that the characters `cs` are the
items `vs` with blanks around them: lists in parentheses, texts between quotes, and words.  A word
ends at a break, so two words need a blank between them and other neighbours do not.  `WordMeans`
gives the value of a word, and `Program` puts the parentheses of the program around its items.

A text is read in three passes: parentheses are counted, the text is cut into pieces that become
tokens, and the tokens are read.  `Items.exists_pieces` follows items through the three passes, and
`Items.of_reads` finds the items in the text again.  `parseText_eq_ok_iff` joins the two, and
`parse_eq_ok_iff` is the same for the bytes of a text.
-/

namespace SmallLisp

/-! ## Grammar -/

/-- The word starts with a digit, or with a sign and a digit. -/
def NumberLike (w : List Char) : Prop :=
  (∃ d cs, w = d :: cs ∧ d.isDigit = true) ∨
    ∃ s d cs, w = s :: d :: cs ∧ (s = '+' ∨ s = '-') ∧ d.isDigit = true

/-- The value of a word. -/
inductive WordMeans : List Char → Value → Prop where
  | integer {w : List Char} {n : Int64} (hw : NumberLike w)
      (hn : Number.readInteger? w = some n) : WordMeans w (.int n)
  | float {w : List Char} {x : Float} (hw : NumberLike w) (hn : Number.readInteger? w = none)
      (hx : Number.readFloat? w = some x) : WordMeans w (.float x)
  | keyword {k : Keyword} (hk : k ∈ Keyword.named) : WordMeans k.name.toList (.keyword k)
  | symbol {w : List Char} (hw : ¬NumberLike w) (hk : ∀ k ∈ Keyword.named, k.name.toList ≠ w) :
      WordMeans w (.symbol (String.ofList w))

/-- The characters are these items, in order, with blanks around them. -/
inductive Items : List Char → List Value → Prop where
  | nil : Items [] []
  | blank {c : Char} {cs : List Char} {vs : List Value} (hc : Text.isBlank c = true)
      (rest : Items cs vs) : Items (c :: cs) vs
  | list {inner cs : List Char} {ws vs : List Value} (items : Items inner ws)
      (rest : Items cs vs) : Items ('(' :: (inner ++ ')' :: cs)) (.list ws :: vs)
  | text {s cs : List Char} {vs : List Value} (hs : '"' ∉ s) (rest : Items cs vs) :
      Items ('"' :: (s ++ '"' :: cs)) (.str (String.ofList s) :: vs)
  | word {w cs : List Char} {v : Value} {vs : List Value} (hne : w ≠ [])
      (hw : ∀ c ∈ w, isWordBreak c = false) (hcs : EndsWord cs) (hv : WordMeans w v)
      (rest : Items cs vs) : Items (w ++ cs) (v :: vs)

/-- The characters are one list of items with blanks around it. -/
def Program (cs : List Char) (v : Value) : Prop :=
  ∃ before inner after vs, (∀ c ∈ before, Text.isBlank c = true) ∧
    (∀ c ∈ after, Text.isBlank c = true) ∧ Items inner vs ∧
    cs = before ++ '(' :: (inner ++ ')' :: after) ∧ v = .list vs

/-! ## Words -/

theorem Number.isDigit_eq (c : Char) : Number.isDigit c = c.isDigit := rfl

theorem startsNumber_iff (w : List Char) : startsNumber w = true ↔ NumberLike w := by
  match w with
  | [] => simp [startsNumber, NumberLike]
  | [c] => simp [startsNumber, NumberLike, Number.isDigit_eq]
  | c :: d :: cs => simp [startsNumber, NumberLike, Number.isDigit_eq, Number.isSign]

/-- A word is an integer, a float or a symbol. -/
theorem wordToken_cases {w : List Char} {t : Token} (h : wordToken w = .ok t) :
    (NumberLike w ∧ ∃ n, Number.readInteger? w = some n ∧ t = ⟨.integer n, String.ofList w⟩) ∨
      (NumberLike w ∧ Number.readInteger? w = none ∧
        ∃ x, Number.readFloat? w = some x ∧ t = ⟨.float x, String.ofList w⟩) ∨
      (¬NumberLike w ∧ t = ⟨.symbol, String.ofList w⟩) := by
  simp only [wordToken] at h
  split at h
  · next hs =>
    have hlike := (startsNumber_iff w).1 hs
    split at h
    · next n hn => exact .inl ⟨hlike, n, hn, (Except.ok.inj h).symm⟩
    · next hn =>
      split at h
      · next x hx => exact .inr (.inl ⟨hlike, hn, x, hx, (Except.ok.inj h).symm⟩)
      · cases h
  · next hs =>
    exact .inr (.inr ⟨fun hlike => hs ((startsNumber_iff w).2 hlike), (Except.ok.inj h).symm⟩)

theorem not_numberLike_name {k : Keyword} (hk : k ∈ Keyword.named) :
    ¬NumberLike k.name.toList := by
  rw [← startsNumber_iff]
  revert k
  decide

theorem wordValue_name {k : Keyword} (hk : k ∈ Keyword.named) :
    Reader.wordValue k.name = .keyword k := by
  rw [Reader.wordValue, Keyword.ofName?_name hk]

theorem wordValue_of_ne {w : List Char} (h : ∀ k ∈ Keyword.named, k.name.toList ≠ w) :
    Reader.wordValue (String.ofList w) = .symbol (String.ofList w) := by
  have hnone : Keyword.ofName? (String.ofList w) = none := by
    refine List.find?_eq_none.2 fun k hk heq => h k hk ?_
    rw [eq_of_beq heq, String.toList_ofList]
  rw [Reader.wordValue, hnone]

/-- The value of a word that does not start like a number. -/
theorem wordMeans_wordValue {w : List Char} (h : ¬NumberLike w) :
    WordMeans w (Reader.wordValue (String.ofList w)) := by
  by_cases hk : ∀ k ∈ Keyword.named, k.name.toList ≠ w
  · rw [wordValue_of_ne hk]
    exact .symbol h hk
  · push Not at hk
    obtain ⟨k, hk, rfl⟩ := hk
    rw [String.ofList_toList, wordValue_name hk]
    exact .keyword hk

/-- The value of a word is what its token is read as. -/
theorem wordMeans_iff {w : List Char} {v : Value} :
    WordMeans w v ↔ ∃ t, wordToken w = .ok t ∧ Reader.atom? t = some v := by
  constructor
  · intro h
    cases h with
    | integer hw hn =>
      refine ⟨⟨.integer _, String.ofList w⟩, ?_, rfl⟩
      simp only [wordToken, (startsNumber_iff w).2 hw, hn, if_true]
    | float hw hn hx =>
      refine ⟨⟨.float _, String.ofList w⟩, ?_, rfl⟩
      simp only [wordToken, (startsNumber_iff w).2 hw, hn, hx, if_true]
    | @keyword k hk =>
      have hs : startsNumber k.name.toList = false :=
        Bool.eq_false_iff.2 fun h => not_numberLike_name hk ((startsNumber_iff _).1 h)
      refine ⟨⟨.symbol, k.name⟩, ?_, ?_⟩
      · simp only [wordToken, hs, Bool.false_eq_true, if_false, String.ofList_toList]
      · rw [← wordValue_name hk]
        rfl
    | symbol hw hk =>
      have hs : startsNumber w = false :=
        Bool.eq_false_iff.2 fun h => hw ((startsNumber_iff w).1 h)
      refine ⟨⟨.symbol, String.ofList w⟩, ?_, ?_⟩
      · simp only [wordToken, hs, Bool.false_eq_true, if_false]
      · rw [← wordValue_of_ne hk]
        rfl
  · rintro ⟨t, ht, hv⟩
    rcases wordToken_cases ht with ⟨hw, n, hn, rfl⟩ | ⟨hw, hn, x, hx, rfl⟩ | ⟨hw, rfl⟩
    · cases hv
      exact .integer hw hn
    · cases hv
      exact .float hw hn hx
    · cases hv
      exact wordMeans_wordValue hw

/-! ## From items to tokens -/

/-- The tokens of these pieces, in order. -/
abbrev Tokens (ps : List Piece) (ts : List Token) : Prop :=
  List.Forall₂ (fun p t => p.token = .ok t) ps ts

theorem mapM_token_eq_ok_iff {ps : List Piece} {ts : List Token} :
    ps.mapM Piece.token = .ok ts ↔ Tokens ps ts := by
  induction ps generalizing ts with
  | nil =>
    rw [Tokens, List.mapM_nil, List.forall₂_nil_left_iff]
    exact ⟨fun h => (Except.ok.inj h).symm, fun h => h ▸ rfl⟩
  | cons p ps ih =>
    rw [Tokens, List.mapM_cons, List.forall₂_cons_left_iff]
    constructor
    · intro h
      cases ht : p.token with
      | error e =>
        rw [ht] at h
        cases h
      | ok t =>
        cases hts : ps.mapM Piece.token with
        | error e =>
          rw [ht, hts] at h
          cases h
        | ok us =>
          rw [ht, hts] at h
          exact ⟨t, us, rfl, ih.1 hts, (Except.ok.inj h).symm⟩
    · rintro ⟨t, us, ht, hus, rfl⟩
      rw [ht, ih.2 hus]
      rfl

/-- Items become pieces, and these become tokens that read as the items.  What follows the items
does not matter as long as it ends a word. -/
theorem Items.exists_pieces {cs : List Char} {vs : List Value} (h : Items cs vs) :
    ∀ rest, EndsWord rest → ∃ ps ts, pieces (cs ++ rest) = ps ++ pieces rest ∧ Tokens ps ts ∧
      Reader.Reads ts vs ∧ ps.count .opening = ps.count .closing := by
  induction h with
  | nil =>
    intro rest _
    exact ⟨[], [], rfl, .nil, .nil, rfl⟩
  | blank hc _ ih =>
    intro rest hrest
    obtain ⟨ps, ts, hps, hts, hreads, hcount⟩ := ih rest hrest
    exact ⟨ps, ts, by rw [List.cons_append, pieces_blank hc, hps], hts, hreads, hcount⟩
  | @list inner cs ws vs _ _ ihItems ihRest =>
    intro rest hrest
    obtain ⟨ps, ts, hps, hts, hreads, hcount⟩ := ihRest rest hrest
    obtain ⟨qs, us, hqs, hus, hreads', hcount'⟩ :=
      ihItems (')' :: (cs ++ rest)) (endsWord_cons rfl _)
    refine ⟨.opening :: (qs ++ .closing :: ps), ⟨.openList, "("⟩ :: (us ++ ⟨.closeList, ")"⟩ :: ts),
      ?_, ?_, ?_, ?_⟩
    · rw [List.cons_append, List.append_assoc, List.cons_append, pieces_opening, hqs,
        pieces_closing, hps]
      simp
    · exact .cons rfl (List.rel_append hus (.cons rfl hts))
    · exact .list rfl hreads' rfl hreads
    · simp [hcount, hcount']
      omega
  | @text s cs vs hs _ ih =>
    intro rest hrest
    obtain ⟨ps, ts, hps, hts, hreads, hcount⟩ := ih rest hrest
    refine ⟨.text s :: ps, ⟨.string, String.ofList s⟩ :: ts, ?_, .cons rfl hts, .atom rfl hreads,
      ?_⟩
    · rw [List.cons_append, List.append_assoc, List.cons_append, pieces_text hs, hps]
      rfl
    · simpa using hcount
  | @word w cs v vs hne hw hcs hv _ ih =>
    intro rest hrest
    obtain ⟨ps, ts, hps, hts, hreads, hcount⟩ := ih rest hrest
    obtain ⟨t, ht, hatom⟩ := wordMeans_iff.1 hv
    refine ⟨.word w :: ps, t :: ts, ?_, .cons ht hts, .atom hatom hreads, ?_⟩
    · rw [List.append_assoc, pieces_word hne hw (hcs.append hrest), hps]
      rfl
    · simpa using hcount

/-! ## From tokens to items -/

theorem Items.blanks {b cs : List Char} {vs : List Value} (hb : ∀ c ∈ b, Text.isBlank c = true)
    (h : Items cs vs) : Items (b ++ cs) vs := by
  induction b with
  | nil => exact h
  | cons c b ih =>
    exact .blank (hb c List.mem_cons_self) (ih fun d hd => hb d (List.mem_cons_of_mem _ hd))

/-- A piece whose token is a parenthesis is that parenthesis. -/
theorem parenthesis_of_token {p : Piece} {t : Token} (h : p.token = .ok t) :
    (t.kind = .openList → p = .opening) ∧ (t.kind = .closeList → p = .closing) := by
  cases p with
  | opening => cases h; exact ⟨fun _ => rfl, nofun⟩
  | closing => cases h; exact ⟨nofun, fun _ => rfl⟩
  | text s => cases h; exact ⟨nofun, nofun⟩
  | unclosed s => cases h
  | word w =>
    rcases wordToken_cases h with ⟨-, n, -, rfl⟩ | ⟨-, -, x, -, rfl⟩ | ⟨-, rfl⟩ <;>
      exact ⟨nofun, nofun⟩

/-- The pieces of a list and of what follows it. -/
theorem Tokens.exists_list {o c : Token} {inner ts : List Token} {ps : List Piece}
    (h : Tokens ps (o :: (inner ++ c :: ts))) (ho : o.kind = .openList)
    (hc : c.kind = .closeList) :
    ∃ qs rs, ps = .opening :: (qs ++ .closing :: rs) ∧ Tokens qs inner ∧ Tokens rs ts := by
  cases h with
  | @cons p _ ps _ hp hps =>
    obtain rfl := (parenthesis_of_token hp).1 ho
    have htake := List.forall₂_take_append ps inner (c :: ts) hps
    have hdrop := List.forall₂_drop_append ps inner (c :: ts) hps
    obtain ⟨q, rs, hq, hrs, heq⟩ := List.forall₂_cons_right_iff.1 hdrop
    obtain rfl := (parenthesis_of_token hq).2 hc
    refine ⟨ps.take inner.length, rs, ?_, htake, hrs⟩
    rw [← heq, List.take_append_drop]

/-- A piece that is an item of its own is a text or a word. -/
theorem atom_of_token {p : Piece} {t : Token} {v : Value} (h : p.token = .ok t)
    (ht : Reader.atom? t = some v) :
    (∃ s, p = .text s ∧ v = .str (String.ofList s)) ∨ ∃ w, p = .word w ∧ WordMeans w v := by
  cases p with
  | opening => cases h; cases ht
  | closing => cases h; cases ht
  | text s => cases h; cases ht; exact .inl ⟨s, rfl, rfl⟩
  | unclosed s => cases h
  | word w => exact .inr ⟨w, rfl, wordMeans_iff.2 ⟨t, h, ht⟩⟩

/-- Tokens that read as items come from a text that starts with these items, up to the parenthesis
that closes their list. -/
theorem Items.of_reads {ts : List Token} {vs : List Value} (h : Reader.Reads ts vs) :
    ∀ (ps later : List Piece) (cs : List Char), Tokens ps ts →
      Spelling cs (ps ++ .closing :: later) →
      ∃ inner after, cs = inner ++ ')' :: after ∧ Items inner vs ∧ Spelling after later := by
  -- The text may have blanks in front of each piece: they go to the item that follows them.
  induction h with
  | nil =>
    intro ps later cs hps hcs
    cases hps
    obtain ⟨b, front, after, hb, rfl, hfront, hafter⟩ := hcs.exists_front
    cases hfront with
    | closing => exact ⟨b, after, rfl, by simpa using Items.nil.blanks hb, hafter⟩
  | @atom t ts v vs ht _ ih =>
    intro ps later cs hps hcs
    cases hps with
    | @cons p _ ps _ hp hps =>
      obtain ⟨b, front, rest, hb, rfl, hfront, hrest⟩ := hcs.exists_front
      obtain ⟨inner, after, rfl, hitems, hafter⟩ := ih ps later rest hps hrest
      rcases atom_of_token hp ht with ⟨s, rfl, rfl⟩ | ⟨w, rfl, hv⟩
      · cases hfront with
        | text hs =>
          exact ⟨b ++ '"' :: (s ++ '"' :: inner), after, by simp, (Items.text hs hitems).blanks hb,
            hafter⟩
      · cases hfront with
        | word hne hw hend =>
          exact ⟨b ++ (w ++ inner), after, by simp,
            (Items.word hne hw hend.of_append hv hitems).blanks hb, hafter⟩
  | @list o c inner ts ws vs ho _ hc _ ihItems ihRest =>
    intro ps later cs hps hcs
    obtain ⟨qs, rs, rfl, hqs, hrs⟩ := hps.exists_list ho hc
    rw [List.cons_append, List.append_assoc, List.cons_append] at hcs
    obtain ⟨b, front, rest, hb, rfl, hfront, hrest⟩ := hcs.exists_front
    cases hfront with
    | opening =>
      obtain ⟨inner', after, rfl, hitems, hafter⟩ := ihItems qs _ rest hqs hrest
      obtain ⟨inner'', after', rfl, hitems', hafter'⟩ := ihRest rs later after hrs hafter
      exact ⟨b ++ '(' :: (inner' ++ ')' :: inner''), after', by simp,
        (Items.list hitems hitems').blanks hb, hafter'⟩

/-! ## Programs -/

theorem pieces_blanks {b : List Char} (hb : ∀ c ∈ b, Text.isBlank c = true) (cs : List Char) :
    pieces (b ++ cs) = pieces cs := by
  induction b with
  | nil => rfl
  | cons c b ih =>
    rw [List.cons_append, pieces_blank (hb c List.mem_cons_self),
      ih fun d hd => hb d (List.mem_cons_of_mem _ hd)]

theorem parseText_eq_ok {cs : List Char} {v : Value} :
    parseText cs = .ok v ↔
      isBalanced cs = true ∧ ∃ ts, Tokens (pieces cs) ts ∧ (Reader.read ts).1 = .ok v := by
  unfold parseText tokenizeText
  cases hb : isBalanced cs with
  | false => simp
  | true =>
    cases ht : (pieces cs).mapM Piece.token with
    | error e =>
      simp only [if_true, true_and, reduceCtorEq, false_iff, not_exists]
      rintro ts ⟨hts, -⟩
      rw [mapM_token_eq_ok_iff.2 hts] at ht
      cases ht
    | ok ts =>
      simp only [if_true, true_and]
      constructor
      · intro hv
        exact ⟨ts, mapM_token_eq_ok_iff.1 ht, hv⟩
      · rintro ⟨us, hus, hv⟩
        rw [mapM_token_eq_ok_iff.2 hus] at ht
        cases ht
        exact hv

/-- A text is read as a program exactly where it spells one. -/
theorem parseText_eq_ok_iff {cs : List Char} {v : Value} :
    parseText cs = .ok v ↔ Program cs v := by
  rw [parseText_eq_ok]
  constructor
  · rintro ⟨-, ts, hts, hread⟩
    obtain ⟨o, inner, c, vs, rfl, ho, hc, hreads, rfl⟩ := Reader.read_eq_ok_iff.1 hread
    obtain ⟨qs, rs, hps, hqs, hrs⟩ := hts.exists_list ho hc
    cases hrs
    have hspell := spelling_pieces cs
    rw [hps] at hspell
    obtain ⟨b, front, rest, hb, rfl, hfront, hrest⟩ := hspell.exists_front
    cases hfront with
    | opening =>
      obtain ⟨inner', after, rfl, hitems, hafter⟩ := Items.of_reads hreads qs [] rest hqs hrest
      exact ⟨b, inner', after, vs, hb, hafter.isBlank_of_nil, hitems, rfl, rfl⟩
  · rintro ⟨b, inner, after, vs, hb, hafter, hitems, rfl, rfl⟩
    obtain ⟨ps, ts, hps, hts, hreads, hcount⟩ :=
      hitems.exists_pieces (')' :: after) (endsWord_cons rfl _)
    have hnil : pieces after = [] := by
      rw [← List.append_nil after, pieces_blanks hafter, pieces_nil]
    have hpieces : pieces (b ++ '(' :: (inner ++ ')' :: after)) =
        .opening :: (ps ++ [.closing]) := by
      rw [pieces_blanks hb, pieces_opening, hps, pieces_closing, hnil]
    refine ⟨?_, ⟨.openList, "("⟩ :: (ts ++ [⟨.closeList, ")"⟩]), ?_, ?_⟩
    · rw [isBalanced_iff, hpieces]
      simp [hcount]
    · rw [hpieces]
      exact .cons rfl (List.rel_append hts (.cons rfl .nil))
    · exact Reader.read_eq_ok_iff.2 ⟨_, ts, _, vs, rfl, rfl, rfl, hreads, rfl⟩

/-- The bytes of a text are read as a program exactly where the characters that they spell, without
an opening mark, are one. -/
theorem parse_eq_ok_iff (bytes : List UInt8) (v : Value) :
    parse bytes = .ok v ↔ ∃ cs, Text.Spelled bytes cs ∧ Program (Text.dropMark cs) v := by
  rw [parse, Text.decode, parseText_eq_ok_iff]
  constructor
  · intro h
    exact ⟨Text.decodeAll bytes, Text.spelled_decodeAll bytes, h⟩
  · rintro ⟨cs, hcs, h⟩
    rwa [Text.spelled_iff.1 hcs]

end SmallLisp
