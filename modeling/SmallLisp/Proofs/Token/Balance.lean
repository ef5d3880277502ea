import SmallLisp.Error
import SmallLisp.Proofs.Grammar

/-!
# Balanced tokens

Parentheses are counted over the characters of a text, before there are any tokens, while lists are
read from the tokens.  The two agree on what a parenthesis is: a text that has tokens has as many
opening as closing ones among them (`openings_eq_closings`).

Counting does not put parentheses in order, and `)(` passes.  But a list that has been opened is
closed before such tokens end: where the tokens that are left close all lists that are open, besides
those that they open themselves, reading reaches the end of the outermost one
(`exists_readItems_ok`).  So reading fails only at the first token or after a complete list, and
`parse_of_tokenize` says which tokens are read in which way.
-/

namespace SmallLisp

/-! ## Counts -/

/-- How many of the tokens open a list. -/
def openings (ts : List Token) : Nat :=
  ts.countP (·.kind = .openList)

/-- How many of the tokens close a list. -/
def closings (ts : List Token) : Nat :=
  ts.countP (·.kind = .closeList)

theorem openings_cons (t : Token) (ts : List Token) :
    openings (t :: ts) = openings ts + if t.kind = .openList then 1 else 0 := by
  simp [openings, List.countP_cons]

theorem closings_cons (t : Token) (ts : List Token) :
    closings (t :: ts) = closings ts + if t.kind = .closeList then 1 else 0 := by
  simp [closings, List.countP_cons]

/-- What a piece becomes: a parenthesis if it is one, and never a token that is no item. -/
theorem kind_of_token {p : Piece} {t : Token} (h : p.token = .ok t) :
    (t.kind = .openList ↔ p = .opening) ∧ (t.kind = .closeList ↔ p = .closing) ∧
      t.kind ≠ .invalid := by
  cases p with
  | opening => cases h; simp
  | closing => cases h; simp
  | text s => cases h; simp
  | unclosed s => cases h
  | word w =>
    rcases wordToken_cases h with ⟨-, n, -, rfl⟩ | ⟨-, -, x, -, rfl⟩ | ⟨-, rfl⟩ <;> simp

theorem Tokens.counts {ps : List Piece} {ts : List Token} (h : Tokens ps ts) :
    openings ts = ps.count .opening ∧ closings ts = ps.count .closing := by
  induction h with
  | nil => exact ⟨rfl, rfl⟩
  | @cons p t ps ts hp _ ih =>
    obtain ⟨ho, hc, -⟩ := kind_of_token hp
    simp [openings_cons, closings_cons, List.count_cons, ih, ho, hc]

theorem Tokens.ne_invalid {ps : List Piece} {ts : List Token} (h : Tokens ps ts) :
    ∀ t ∈ ts, t.kind ≠ .invalid := by
  induction h with
  | nil => simp
  | cons hp _ ih => simpa using ⟨(kind_of_token hp).2.2, ih⟩

theorem tokens_of_tokenizeText {cs : List Char} {ts : List Token}
    (h : tokenizeText cs = .ok ts) : isBalanced cs = true ∧ Tokens (pieces cs) ts := by
  unfold tokenizeText at h
  split at h
  · next hb => exact ⟨hb, mapM_token_eq_ok_iff.1 h⟩
  · cases h

/-- The tokens of a text open as many lists as they close. -/
theorem openings_eq_closings {cs : List Char} {ts : List Token} (h : tokenizeText cs = .ok ts) :
    openings ts = closings ts := by
  obtain ⟨hb, ht⟩ := tokens_of_tokenizeText h
  rw [ht.counts.1, ht.counts.2]
  exact (isBalanced_iff cs).1 hb

/-! ## Lists at the front -/

namespace Reader

/-- The tokens are one list, from the parenthesis that opens it to the one that closes it. -/
def IsList (ts : List Token) (v : Value) : Prop :=
  ∃ o inner c vs, ts = o :: (inner ++ [c]) ∧ o.kind = .openList ∧ c.kind = .closeList ∧
    Reads inner vs ∧ v = .list vs

theorem readList_eq_ok_iff {ts rest : List Token} {v : Value} :
    readList ts = (.ok v, rest) ↔ ∃ list, ts = list ++ rest ∧ IsList list v := by
  constructor
  · intro h
    cases ts with
    | nil => cases h
    | cons o ts =>
      rw [readList] at h
      split at h
      · next ho =>
        obtain ⟨inner, vs, c, after, rfl, hc, hreads, hresume⟩ := exists_of_readItems h
        obtain ⟨hv, rfl⟩ := Prod.mk.inj hresume
        refine ⟨o :: (inner ++ [c]), by simp, o, inner, c, vs, rfl, ho, hc, hreads, ?_⟩
        exact (Except.ok.inj hv).symm
      · cases h
  · rintro ⟨list, rfl, o, inner, c, vs, rfl, ho, hc, hreads, rfl⟩
    have hsplit : o :: (inner ++ [c]) ++ rest = o :: (inner ++ c :: rest) := by simp
    rw [hsplit, readList, if_pos ho, readItems_append hreads, readItems_close hc, List.append_nil,
      List.reverse_reverse]
    rfl

/-- Where the tokens close the open lists, besides those that they open, a list is read. -/
theorem exists_readItems_ok {ts : List Token} (hvalid : ∀ t ∈ ts, t.kind ≠ .invalid) :
    ∀ (items : List Value) (outer : List (List Value)),
      openings ts + outer.length < closings ts →
      ∃ v rest, readItems items outer ts = (.ok v, rest) := by
  induction ts with
  | nil =>
    intro items outer h
    cases h
  | cons t ts ih =>
    intro items outer h
    obtain ⟨ht, hts⟩ := List.forall_mem_cons.1 hvalid
    rw [openings_cons, closings_cons] at h
    rcases token_cases t with ⟨v, hv⟩ | ho | hc | hi
    · rw [readItems_atom hv]
      have hkind : t.kind ≠ .openList ∧ t.kind ≠ .closeList := by
        constructor <;> intro hk <;> simp [atom?, hk] at hv
      rw [if_neg hkind.1, if_neg hkind.2] at h
      exact ih hts _ _ h
    · rw [readItems_open ho]
      rw [if_pos ho, if_neg (by simp [ho])] at h
      exact ih hts _ _ (by simp; omega)
    · rw [readItems_close hc]
      rw [if_neg (by simp [hc]), if_pos hc] at h
      cases outer with
      | nil => exact ⟨_, _, rfl⟩
      | cons above outer => exact ih hts _ _ (by simp at h; omega)
    · exact absurd hi ht

/-! ## How reading ends -/

/-- The first token opens no list. -/
def Headless (ts : List Token) : Prop :=
  ∃ t rest, ts = t :: rest ∧ t.kind ≠ .openList

/-- A list is complete, and this is the first token after it. -/
def Trails (ts : List Token) (t : Token) : Prop :=
  ∃ list v rest, ts = list ++ t :: rest ∧ IsList list v

theorem read_of_ne_openList {t : Token} (h : t.kind ≠ .openList) (ts : List Token) :
    (read (t :: ts)).1 = .error (.noList t) := by
  rw [read, readList, if_neg h]

theorem read_of_trails {ts : List Token} {t : Token} (h : Trails ts t) :
    (read ts).1 = .error (.trailing t) := by
  obtain ⟨list, v, rest, hts, hlist⟩ := h
  rw [read, readList_eq_ok_iff.2 ⟨list, hts, hlist⟩]

/-- The tokens are items and parentheses, and open as many lists as they close. -/
structure Balanced (ts : List Token) : Prop where
  valid : ∀ t ∈ ts, t.kind ≠ .invalid
  counts : openings ts = closings ts

namespace Balanced

variable {ts : List Token}

/-- Reading balanced tokens fails at the first one or after a complete list. -/
theorem error_cases (hb : Balanced ts) {e : ReadError} (h : (read ts).1 = .error e) :
    (e = .endOfTokens ∧ ts = []) ∨ (∃ t, e = .noList t ∧ Headless ts) ∨
      ∃ t, e = .trailing t ∧ Trails ts t := by
  obtain ⟨hvalid, hcounts⟩ := hb
  cases ts with
  | nil =>
    cases h
    exact .inl ⟨rfl, rfl⟩
  | cons t ts =>
    by_cases ho : t.kind = .openList
    · have hlt : openings ts + 0 < closings ts := by
        rw [openings_cons, closings_cons, if_pos ho, if_neg (by simp [ho])] at hcounts
        omega
      obtain ⟨v, rest, hitems⟩ := exists_readItems_ok (List.forall_mem_cons.1 hvalid).2 [] [] hlt
      have hlist : readList (t :: ts) = (.ok v, rest) := by rw [readList, if_pos ho, hitems]
      rw [read, hlist] at h
      cases rest with
      | nil => cases h
      | cons u rest =>
        cases h
        obtain ⟨list, hts, hv⟩ := readList_eq_ok_iff.1 hlist
        exact .inr (.inr ⟨u, rfl, list, v, rest, hts, hv⟩)
    · rw [read_of_ne_openList ho] at h
      cases h
      exact .inr (.inl ⟨t, rfl, t, ts, rfl, ho⟩)

theorem unexpectedEnd_iff (hb : Balanced ts) :
    (∃ e, (read ts).1 = .error e ∧ e.kind = .unexpectedEnd) ↔ ts = [] := by
  constructor
  · rintro ⟨e, he, hk⟩
    rcases hb.error_cases he with ⟨rfl, hts⟩ | ⟨t, rfl, -⟩ | ⟨t, rfl, -⟩
    · exact hts
    · cases hk
    · cases hk
  · rintro rfl
    exact ⟨.endOfTokens, rfl, rfl⟩

theorem unexpectedToken_iff (hb : Balanced ts) :
    (∃ e, (read ts).1 = .error e ∧ e.kind = .unexpectedToken) ↔ Headless ts := by
  constructor
  · rintro ⟨e, he, hk⟩
    rcases hb.error_cases he with ⟨rfl, -⟩ | ⟨t, rfl, hts⟩ | ⟨t, rfl, -⟩
    · cases hk
    · exact hts
    · cases hk
  · rintro ⟨t, rest, rfl, ht⟩
    exact ⟨.noList t, read_of_ne_openList ht rest, rfl⟩

theorem trailing_iff (hb : Balanced ts) (t : Token) :
    (read ts).1 = .error (.trailing t) ↔ Trails ts t := by
  constructor
  · intro he
    rcases hb.error_cases he with ⟨h, -⟩ | ⟨u, h, -⟩ | ⟨u, h, hu⟩
    · cases h
    · cases h
    · cases h
      exact hu
  · exact read_of_trails

theorem trailingTokens_iff (hb : Balanced ts) :
    (∃ e, (read ts).1 = .error e ∧ e.kind = .trailingTokens) ↔ ∃ t, Trails ts t := by
  constructor
  · rintro ⟨e, he, hk⟩
    rcases hb.error_cases he with ⟨rfl, -⟩ | ⟨t, rfl, -⟩ | ⟨t, rfl, ht⟩
    · cases hk
    · cases hk
    · exact ⟨t, ht⟩
  · rintro ⟨t, ht⟩
    exact ⟨.trailing t, read_of_trails ht, rfl⟩

theorem ok_iff (hb : Balanced ts) :
    (∃ v, (read ts).1 = .ok v) ↔ ts ≠ [] ∧ ¬Headless ts ∧ ¬∃ t, Trails ts t := by
  constructor
  · rintro ⟨v, hv⟩
    refine ⟨?_, ?_, ?_⟩
    · rintro rfl
      cases hv
    · rintro ⟨t, rest, rfl, ht⟩
      rw [read_of_ne_openList ht] at hv
      cases hv
    · rintro ⟨t, ht⟩
      rw [read_of_trails ht] at hv
      cases hv
  · rintro ⟨hne, hhead, htrails⟩
    cases hread : (read ts).1 with
    | ok v => exact ⟨v, rfl⟩
    | error e =>
      rcases hb.error_cases hread with ⟨-, hts⟩ | ⟨t, -, hts⟩ | ⟨t, -, ht⟩
      · exact absurd hts hne
      · exact absurd hts hhead
      · exact absurd ⟨t, ht⟩ htrails

end Balanced

end Reader

/-! ## Texts -/

open Reader (Headless Trails)

theorem balanced_of_tokenize {bytes : List UInt8} {ts : List Token}
    (h : tokenize bytes = .ok ts) : Reader.Balanced ts :=
  ⟨(tokens_of_tokenizeText h).2.ne_invalid, openings_eq_closings h⟩

theorem parse_eq_read {bytes : List UInt8} {ts : List Token} (h : tokenize bytes = .ok ts) :
    parse bytes = (Reader.read ts).1 := by
  rw [tokenize] at h
  rw [parse, parseText, h]

/-- The tokens of a text open as many lists as they close, so their shape decides how reading it
ends.  It fails without tokens, at a first token that opens no list, and at the first token after a
complete list, and else there is a program. -/
theorem parse_of_tokenize {bytes : List UInt8} {ts : List Token} (h : tokenize bytes = .ok ts) :
    openings ts = closings ts ∧
      ((∃ e, parse bytes = .error e ∧ e.kind = .unexpectedEnd) ↔ ts = []) ∧
      ((∃ e, parse bytes = .error e ∧ e.kind = .unexpectedToken) ↔ Headless ts) ∧
      ((∃ e, parse bytes = .error e ∧ e.kind = .trailingTokens) ↔ ∃ t, Trails ts t) ∧
      (∀ t, parse bytes = .error (.trailing t) ↔ Trails ts t) ∧
      ((∃ v, parse bytes = .ok v) ↔ ts ≠ [] ∧ ¬Headless ts ∧ ¬∃ t, Trails ts t) := by
  have hb := balanced_of_tokenize h
  rw [parse_eq_read h]
  exact ⟨hb.counts, hb.unexpectedEnd_iff, hb.unexpectedToken_iff, hb.trailingTokens_iff,
    hb.trailing_iff, hb.ok_iff⟩

/-- A list with a parenthesis in a text and a list inside it, then two parentheses in the wrong
order and a word. -/
def closedTwice : List UInt8 :=
  Text.bytesOf "(\"(\" ())) (x"

/-- The list is complete in front of the third closing parenthesis, so reading fails there and not
at the end of the tokens. -/
theorem closedTwice_trailing :
    tokenize closedTwice = .ok [⟨.openList, "("⟩, ⟨.string, "("⟩, ⟨.openList, "("⟩,
        ⟨.closeList, ")"⟩, ⟨.closeList, ")"⟩, ⟨.closeList, ")"⟩, ⟨.openList, "("⟩,
        ⟨.symbol, "x"⟩] ∧
      parse closedTwice = .error (.trailing ⟨.closeList, ")"⟩) := by
  have htokens : tokenize closedTwice = .ok [⟨.openList, "("⟩, ⟨.string, "("⟩, ⟨.openList, "("⟩,
      ⟨.closeList, ")"⟩, ⟨.closeList, ")"⟩, ⟨.closeList, ")"⟩, ⟨.openList, "("⟩,
      ⟨.symbol, "x"⟩] := by rfl
  obtain ⟨-, -, -, -, htrailing, -⟩ := parse_of_tokenize htokens
  have hitems : Reader.Reads [⟨.string, "("⟩, ⟨.openList, "("⟩, ⟨.closeList, ")"⟩]
      [.str "(", .list []] := .atom rfl (.list rfl .nil rfl .nil)
  refine ⟨htokens, (htrailing _).2 ⟨[_, _, _, _, _], .list [.str "(", .list []], _, rfl, ?_⟩⟩
  exact ⟨_, _, _, _, rfl, rfl, rfl, hitems, rfl⟩

end SmallLisp
