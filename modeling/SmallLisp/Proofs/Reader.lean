import Mathlib.Data.List.Basic
import SmallLisp.Reader

/-!
# The grammar of tokens

`Reads ts vs` says that the tokens `ts` are the items `vs`, in order: an item is a token of its own
or a list between two parentheses.

`readItems_append` says that reading such tokens puts their items on top of those read, whatever
lists are open around them.  `exists_of_readItems` is the other direction: a list is read only if
items and a closing parenthesis come first.  Together they say which tokens are a program
(`read_eq_ok_iff`).
-/

namespace SmallLisp.Reader

/-- The value of a token that is an item of its own. -/
def atom? (t : Token) : Option Value :=
  match t.kind with
  | .integer n => some (.int n)
  | .float x => some (.float x)
  | .string => some (.str t.text)
  | .symbol => some (wordValue t.text)
  | .openList | .closeList | .invalid => none

/-- The tokens are these items, in order. -/
inductive Reads : List Token → List Value → Prop where
  | nil : Reads [] []
  | atom {t : Token} {ts : List Token} {v : Value} {vs : List Value} (ht : atom? t = some v)
      (rest : Reads ts vs) : Reads (t :: ts) (v :: vs)
  | list {o c : Token} {inner ts : List Token} {ws vs : List Value} (ho : o.kind = .openList)
      (items : Reads inner ws) (hc : c.kind = .closeList) (rest : Reads ts vs) :
      Reads (o :: (inner ++ c :: ts)) (.list ws :: vs)

/-! ## One token -/

/-- Goes on with a list that has been closed: as the answer, or as an item of the list around it. -/
def resume (list : Value) (outer : List (List Value)) (ts : List Token) :
    Except ReadError Value × List Token :=
  match outer with
  | [] => (.ok list, ts)
  | above :: outer => readItems (list :: above) outer ts

theorem readItems_atom {t : Token} {v : Value} (h : atom? t = some v) (items : List Value)
    (outer : List (List Value)) (ts : List Token) :
    readItems items outer (t :: ts) = readItems (v :: items) outer ts := by
  obtain ⟨kind, text⟩ := t
  cases kind <;> cases h <;> rfl

theorem readItems_open {t : Token} (h : t.kind = .openList) (items : List Value)
    (outer : List (List Value)) (ts : List Token) :
    readItems items outer (t :: ts) = readItems [] (items :: outer) ts := by
  rw [readItems, h]

theorem readItems_close {t : Token} (h : t.kind = .closeList) (items : List Value)
    (outer : List (List Value)) (ts : List Token) :
    readItems items outer (t :: ts) = resume (.list items.reverse) outer ts := by
  rw [readItems, h]
  cases outer <;> rfl

theorem readItems_invalid {t : Token} (h : t.kind = .invalid) (items : List Value)
    (outer : List (List Value)) (ts : List Token) :
    readItems items outer (t :: ts) = (.error (.notAnItem t), ts) := by
  rw [readItems, h]

/-- A token is an item, a parenthesis or invalid. -/
theorem token_cases (t : Token) :
    (∃ v, atom? t = some v) ∨ t.kind = .openList ∨ t.kind = .closeList ∨ t.kind = .invalid := by
  unfold atom?
  cases t.kind <;> simp

/-! ## All tokens -/

/-- Reading the tokens of items puts the items on top of those read. -/
theorem readItems_append {ts : List Token} {vs : List Value} (h : Reads ts vs) :
    ∀ (items : List Value) (outer : List (List Value)) (rest : List Token),
      readItems items outer (ts ++ rest) = readItems (vs.reverse ++ items) outer rest := by
  induction h with
  | nil =>
    intro items outer rest
    rfl
  | atom ht _ ih =>
    intro items outer rest
    rw [List.cons_append, readItems_atom ht, ih, List.reverse_cons, List.append_assoc]
    rfl
  | list ho _ hc _ ihItems ihRest =>
    intro items outer rest
    rw [List.cons_append, readItems_open ho, List.append_assoc, ihItems, List.cons_append,
      readItems_close hc, List.append_nil, List.reverse_reverse, resume, ihRest, List.reverse_cons,
      List.append_assoc]
    rfl

/-- Where a value is read, items come first, and then the parenthesis that closes their list. -/
theorem exists_of_readItems {items : List Value} {outer : List (List Value)} {ts left : List Token}
    {v : Value} (h : readItems items outer ts = (.ok v, left)) :
    ∃ inner vs c rest, ts = inner ++ c :: rest ∧ c.kind = .closeList ∧ Reads inner vs ∧
      resume (.list (items.reverse ++ vs)) outer rest = (.ok v, left) := by
  -- A nested list is read first; what follows it is shorter, but not the tail.
  induction hn : ts.length using Nat.strongRecOn generalizing items outer ts with
  | _ n ih =>
    subst hn
    cases ts with
    | nil => cases h
    | cons t ts =>
      rcases token_cases t with ⟨w, hw⟩ | ho | hc | hi
      · rw [readItems_atom hw] at h
        obtain ⟨inner, vs, c, rest, rfl, hc, hreads, hresume⟩ := ih _ (by simp) h rfl
        refine ⟨t :: inner, w :: vs, c, rest, rfl, hc, .atom hw hreads, ?_⟩
        rwa [List.reverse_cons, List.append_assoc] at hresume
      · rw [readItems_open ho] at h
        obtain ⟨inner, ws, c, rest, rfl, hc, hreads, hresume⟩ := ih _ (by simp) h rfl
        have hlt : rest.length < (t :: (inner ++ c :: rest)).length := by
          simp only [List.length_cons, List.length_append]
          omega
        obtain ⟨later, vs, c', rest', rfl, hc', hreads', hresume'⟩ := ih _ hlt hresume rfl
        refine ⟨t :: (inner ++ c :: later), .list ws :: vs, c', rest', by simp, hc',
          .list ho hreads hc hreads', ?_⟩
        rwa [List.reverse_cons, List.append_assoc] at hresume'
      · rw [readItems_close hc] at h
        refine ⟨[], [], t, ts, rfl, hc, .nil, ?_⟩
        rwa [List.append_nil]
      · rw [readItems_invalid hi] at h
        cases h

theorem readList_of_read {ts : List Token} {v : Value} (h : (read ts).1 = .ok v) :
    readList ts = (.ok v, []) := by
  unfold read at h
  split at h
  · next w heq =>
    rw [heq]
    rw [Except.ok.inj h]
  · cases h
  · cases h

/-- A program is read from the tokens of one list, and from no others. -/
theorem read_eq_ok_iff {ts : List Token} {v : Value} :
    (read ts).1 = .ok v ↔
      ∃ o inner c vs, ts = o :: (inner ++ [c]) ∧ o.kind = .openList ∧ c.kind = .closeList ∧
        Reads inner vs ∧ v = .list vs := by
  constructor
  · intro h
    have hlist := readList_of_read h
    cases ts with
    | nil => cases hlist
    | cons o ts =>
      rw [readList] at hlist
      split at hlist
      · next ho =>
        obtain ⟨inner, vs, c, rest, rfl, hc, hreads, hresume⟩ := exists_of_readItems hlist
        obtain ⟨hv, rfl⟩ := Prod.mk.inj hresume
        exact ⟨o, inner, c, vs, rfl, ho, hc, hreads, (Except.ok.inj hv).symm⟩
      · cases hlist
  · rintro ⟨o, inner, c, vs, rfl, ho, hc, hreads, rfl⟩
    have hlist : readList (o :: (inner ++ [c])) = (.ok (.list vs), []) := by
      rw [readList, if_pos ho, readItems_append hreads, readItems_close hc, List.append_nil,
        List.reverse_reverse]
      rfl
    rw [read, hlist]

end SmallLisp.Reader
