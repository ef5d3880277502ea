import SmallLisp.Proofs.Token.Balance

/-!
# Repeated calls of a reader

A reader that is asked again starts at the tokens that the last call left.  No call puts a token
back or skips one: what it leaves is a part of what it had, up to the same end (`read_suffix`), and
shorter if there was a token at all (`length_read_lt`).  So the tokens run out after as many calls
as there are tokens.

Of lists that follow each other every call takes one, and fails if it is not the last
(`read_of_isList`).  `readTimes_answers` says what each call answers.
-/

namespace SmallLisp.Reader

/-! ## One call -/

/-- Reading items goes through the tokens from the front. -/
theorem readItems_suffix (ts : List Token) :
    ∀ (items : List Value) (outer : List (List Value)), (readItems items outer ts).2 <:+ ts := by
  induction ts with
  | nil =>
    intro items outer
    exact List.suffix_rfl
  | cons t ts ih =>
    intro items outer
    have htail : ts <:+ t :: ts := List.suffix_cons t ts
    rcases token_cases t with ⟨v, hv⟩ | ho | hc | hi
    · rw [readItems_atom hv]
      exact (ih _ _).trans htail
    · rw [readItems_open ho]
      exact (ih _ _).trans htail
    · rw [readItems_close hc]
      cases outer with
      | nil => exact htail
      | cons above outer => exact (ih _ _).trans htail
    · rw [readItems_invalid hi]
      exact htail

/-- The first token is always used. -/
theorem readList_suffix (t : Token) (ts : List Token) : (readList (t :: ts)).2 <:+ ts := by
  rw [readList]
  split
  · exact readItems_suffix ts [] []
  · exact List.suffix_rfl

/-- What a call leaves is what reading one list leaves: a token after the list is seen, not used. -/
theorem read_left (ts : List Token) : (read ts).2 = (readList ts).2 := by
  unfold read
  split <;> simp [*]

theorem read_suffix (ts : List Token) : (read ts).2 <:+ ts := by
  rw [read_left]
  cases ts with
  | nil => exact List.suffix_rfl
  | cons t ts => exact (readList_suffix t ts).trans (List.suffix_cons t ts)

theorem length_read_lt {ts : List Token} (h : ts ≠ []) : (read ts).2.length < ts.length := by
  obtain ⟨t, ts, rfl⟩ := List.exists_cons_of_ne_nil h
  rw [read_left]
  exact Nat.lt_succ_of_le (readList_suffix t ts).length_le

/-- A list in front is used as a whole.  It is the answer if nothing follows it. -/
theorem read_of_isList {list : List Token} {v : Value} (h : IsList list v) (rest : List Token) :
    read (list ++ rest) =
      match rest with
      | [] => (.ok v, [])
      | t :: ts => (.error (.trailing t), t :: ts) := by
  rw [read, readList_eq_ok_iff.2 ⟨list, rfl, h⟩]
  cases rest <;> rfl

/-! ## One call after the other -/

/-- The tokens that some calls leave. -/
def left : (times : Nat) → List Token → List Token
  | 0, tokens => tokens
  | times + 1, tokens => left times (read tokens).2

theorem left_succ (n : Nat) (ts : List Token) : left (n + 1) ts = (read (left n ts)).2 := by
  induction n generalizing ts with
  | zero => rfl
  | succ n ih => exact ih (read ts).2

/-- Each call answers for the tokens that the calls before it left. -/
theorem getElem?_readTimes {n times : Nat} (h : n < times) (ts : List Token) :
    (readTimes times ts)[n]? = some (read (left n ts)).1 := by
  induction times generalizing n ts with
  | zero => cases h
  | succ times ih =>
    cases n with
    | zero => rfl
    | succ n => exact ih (Nat.lt_of_succ_lt_succ h) (read ts).2

theorem length_left_le (n : Nat) (ts : List Token) : (left n ts).length ≤ ts.length - n := by
  induction n with
  | zero => exact Nat.le_refl _
  | succ n ih =>
    rw [left_succ]
    by_cases h : left n ts = []
    · rw [h]
      exact Nat.zero_le _
    · have hlt := length_read_lt h
      omega

theorem left_eq_nil {n : Nat} {ts : List Token} (h : ts.length ≤ n) : left n ts = [] := by
  have hle := length_left_le n ts
  exact List.eq_nil_of_length_eq_zero (by omega)

/-! ## Lists that follow each other -/

/-- The tokens of lists, one list after the other. -/
def joined (lists : List (List Token × Value)) : List Token :=
  (lists.map Prod.fst).flatten

theorem joined_cons (p : List Token × Value) (lists : List (List Token × Value)) :
    joined (p :: lists) = p.1 ++ joined lists := rfl

section

variable {lists : List (List Token × Value)} (h : ∀ p ∈ lists, IsList p.1 p.2)
include h

/-- Each call takes one of the lists. -/
theorem left_joined (n : Nat) : left n (joined lists) = joined (lists.drop n) := by
  induction n with
  | zero => rfl
  | succ n ih =>
    rw [left_succ, ih, ← List.tail_drop]
    cases hdrop : lists.drop n with
    | nil => rfl
    | cons p later =>
      have hp : p ∈ lists := List.mem_of_mem_drop (hdrop ▸ List.mem_cons_self)
      rw [joined_cons, read_of_isList (h p hp)]
      split <;> simp [*]

/-- The call that has the list at a place in front of it. -/
theorem read_left_joined {n : Nat} {p : List Token × Value} (hp : lists[n]? = some p) :
    (read (left n (joined lists))).1 =
      match joined (lists.drop (n + 1)) with
      | [] => .ok p.2
      | t :: _ => .error (.trailing t) := by
  obtain ⟨hn, rfl⟩ := List.getElem?_eq_some_iff.1 hp
  rw [left_joined h, List.drop_eq_getElem_cons hn, joined_cons,
    read_of_isList (h _ (List.getElem_mem hn))]
  split <;> rfl

/-- The list after it starts with the token that is in the way. -/
theorem exists_joined_drop {n : Nat} {q : List Token × Value} (hq : lists[n]? = some q) :
    ∃ t rest later, q.1 = t :: rest ∧ joined (lists.drop n) = t :: later := by
  obtain ⟨hn, rfl⟩ := List.getElem?_eq_some_iff.1 hq
  obtain ⟨o, inner, c, -, htokens, -⟩ := h _ (List.getElem_mem hn)
  refine ⟨o, inner ++ [c], inner ++ [c] ++ joined (lists.drop (n + 1)), htokens, ?_⟩
  rw [List.drop_eq_getElem_cons hn, joined_cons, htokens]
  rfl

end

/-- What calls of one reader answer.  Each uses tokens from the front, at least one if there are
any, so the tokens run out.  Where the tokens are lists, each call but the last of these fails at
the first token of the next list, the last answers its list, and the calls after it find none. -/
theorem readTimes_answers (ts : List Token) :
    (∀ n, left (n + 1) ts <:+ left n ts ∧ (left n ts ≠ [] → left (n + 1) ts ≠ left n ts)) ∧
      (∀ n times, ts.length ≤ n → n < times →
        (readTimes times ts)[n]? = some (.error .endOfTokens)) ∧
      ∀ lists : List (List Token × Value), (∀ p ∈ lists, IsList p.1 p.2) → ts = joined lists →
        ∀ n times, n < times →
          (∀ q, lists[n + 1]? = some q →
            ∃ t rest, q.1 = t :: rest ∧ (readTimes times ts)[n]? = some (.error (.trailing t))) ∧
          (∀ p, n + 1 = lists.length → lists[n]? = some p →
            (readTimes times ts)[n]? = some (.ok p.2)) ∧
          (lists.length ≤ n → (readTimes times ts)[n]? = some (.error .endOfTokens)) := by
  refine ⟨fun n => ⟨?_, fun hne heq => ?_⟩, fun n times hle hlt => ?_, ?_⟩
  · rw [left_succ]
    exact read_suffix _
  · have hshorter := length_read_lt hne
    rw [← left_succ, heq] at hshorter
    exact Nat.lt_irrefl _ hshorter
  · rw [getElem?_readTimes hlt, left_eq_nil hle]
    rfl
  · rintro lists h rfl n times hlt
    rw [getElem?_readTimes hlt]
    refine ⟨fun q hq => ?_, fun p hlast hp => ?_, fun hle => ?_⟩
    · obtain ⟨hn, -⟩ := List.getElem?_eq_some_iff.1 hq
      obtain ⟨t, rest, later, htokens, hlater⟩ := exists_joined_drop h hq
      refine ⟨t, rest, htokens, ?_⟩
      rw [read_left_joined h (List.getElem?_eq_getElem (Nat.lt_of_succ_lt hn)), hlater]
    · rw [read_left_joined h hp, hlast, List.drop_length]
      rfl
    · rw [left_joined h, List.drop_eq_nil_of_le hle]
      rfl

/-- The tokens of two lists, the first with a list inside it. -/
def twoLists : List (List Token × Value) :=
  [([⟨.openList, "("⟩, ⟨.openList, "("⟩, ⟨.integer 1, "1"⟩, ⟨.closeList, ")"⟩, ⟨.closeList, ")"⟩],
      .list [.list [.int 1]]),
    ([⟨.openList, "("⟩, ⟨.string, "a"⟩, ⟨.closeList, ")"⟩], .list [.str "a"])]

/-- The first call fails, the second answers, and from the third on there is no token. -/
theorem twoLists_answers :
    (∀ p ∈ twoLists, IsList p.1 p.2) ∧
      (readTimes 9 (joined twoLists))[0]? =
        some (Except.error (ReadError.trailing ⟨.openList, "("⟩)) ∧
      (readTimes 9 (joined twoLists))[1]? = some (Except.ok (Value.list [.str "a"])) ∧
      (readTimes 9 (joined twoLists))[2]? = some (Except.error ReadError.endOfTokens) ∧
      (readTimes 9 (joined twoLists))[8]? = some (Except.error ReadError.endOfTokens) := by
  have hfirst : Reads [⟨.openList, "("⟩, ⟨.integer 1, "1"⟩, ⟨.closeList, ")"⟩] [.list [.int 1]] :=
    .list rfl (.atom rfl .nil) rfl .nil
  have hsecond : Reads [⟨.string, "a"⟩] [.str "a"] := .atom rfl .nil
  have hlists : ∀ p ∈ twoLists, IsList p.1 p.2 := by
    simp only [twoLists, List.forall_mem_cons]
    exact ⟨⟨_, _, _, _, rfl, rfl, rfl, hfirst, rfl⟩, ⟨_, _, _, _, rfl, rfl, rfl, hsecond, rfl⟩,
      nofun⟩
  obtain ⟨-, hend, hjoined⟩ := readTimes_answers (joined twoLists)
  have hcalls := hjoined twoLists hlists rfl
  obtain ⟨t, rest, htokens, htrailing⟩ := (hcalls 0 9 (by decide)).1 twoLists[1] rfl
  cases htokens
  have hanswer := (hcalls 1 9 (by decide)).2.1 twoLists[1] rfl rfl
  have hafter := (hcalls 2 9 (by decide)).2.2 (by decide)
  exact ⟨hlists, htrailing, hanswer, hafter, hend 8 9 (by decide) (by decide)⟩

end SmallLisp.Reader
