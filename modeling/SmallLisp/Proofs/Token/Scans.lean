import Mathlib.Data.List.DropRight
import SmallLisp.Proofs.Token.Balance

/-!
# Repeated scans

A scanner that is asked again goes on where it stopped.  When it stopped at a word that is no number
it still holds the characters of that word, and a parenthesis that comes next gets them in front of
its own.  This does no harm: a word cannot come next (`Scanner.Ready`), a quote or a blank drops
what is held, and the scanner has an error by then and drops its tokens.

So a run makes of the pieces in front of it what they are, whatever is held (`Scanner.passes_run`).
It stops behind the first that is no token, and all other errors are still ahead (`Scanner.Ahead`).
So each scan reports one of them (`scans_textErrors`).  The first scan gives the tokens of the text
(`tokenize_eq_scan`).
-/

namespace SmallLisp

open Scanner (Mode)

/-! ## Pieces that are no tokens -/

/-- The error of a piece that is no token. -/
def Piece.fault? (p : Piece) : Option ScanError :=
  match p.token with
  | .ok _ => none
  | .error e => some e

/-- The errors of the pieces that are no tokens, in order. -/
def faults (ps : List Piece) : List ScanError :=
  ps.filterMap Piece.fault?

theorem faults_of_ok {p : Piece} {t : Token} (h : p.token = .ok t) (ps : List Piece) :
    faults (p :: ps) = faults ps := by
  simp [faults, Piece.fault?, h]

theorem faults_of_error {p : Piece} {e : ScanError} (h : p.token = .error e) (ps : List Piece) :
    faults (p :: ps) = e :: faults ps := by
  simp [faults, Piece.fault?, h]

/-! ## Errors of a text -/

/-- The words that start like a number and spell none, in order. -/
def badNumbers (ps : List Piece) : List (List Char) :=
  ps.filterMap fun
    | .word w =>
      if startsNumber w ∧ Number.readInteger? w = none ∧ Number.readFloat? w = none then some w
      else none
    | _ => none

/-- What stands after the last quote when their number is odd. -/
def openText? (cs : List Char) : Option (List Char) :=
  if cs.count '"' % 2 = 1 then some (cs.rtakeWhile (· != '"')) else none

/-- What is wrong with the text that the pieces make up. -/
def textErrors (cs : List Char) (ps : List Piece) : List ScanError :=
  (badNumbers ps).map (.badNumber <| String.ofList ·) ++
    (openText? cs).toList.map (.unterminated <| String.ofList ·)

theorem rtakeWhile_append {ds : List Char} (h : '"' ∈ ds) (cs : List Char) :
    (cs ++ ds).rtakeWhile (· != '"') = ds.rtakeWhile (· != '"') := by
  induction ds using List.reverseRecOn with
  | nil => cases h
  | append_singleton ds d ih =>
    rw [← List.append_assoc, List.rtakeWhile_concat, List.rtakeWhile_concat]
    split
    · next hd =>
      have hmem : '"' ∈ ds := by
        rw [bne_iff_ne] at hd
        simpa [Ne.symm hd] using h
      rw [ih hmem]
    · rfl

/-- As long as all quotes are closed, what stands in front does not matter. -/
theorem openText?_append (cs ds : List Char) (h : cs.count '"' % 2 = 0) :
    openText? (cs ++ ds) = openText? ds := by
  have hodd : (cs ++ ds).count '"' % 2 = ds.count '"' % 2 := by
    rw [List.count_append]
    omega
  rw [openText?, openText?, hodd]
  split
  · next hd =>
    have hmem : '"' ∈ ds := List.count_pos_iff.1 (by omega)
    rw [rtakeWhile_append hmem]
  · rfl

theorem openText?_unclosed {s : List Char} (hs : '"' ∉ s) : openText? ('"' :: s) = some s := by
  have hcount : ('"' :: s).count '"' = 1 := by
    rw [List.count_cons_self, List.count_eq_zero_of_not_mem hs]
  have hs' : ∀ c ∈ s.reverse, (c != '"') = true := by
    intro c hc
    rw [bne_iff_ne]
    rintro rfl
    exact hs (List.mem_reverse.1 hc)
  have htake : ('"' :: s).rtakeWhile (· != '"') = s := by
    rw [List.rtakeWhile, List.reverse_cons, List.takeWhile_append_of_pos hs']
    simp
  rw [openText?, hcount, htake]
  rfl

theorem textErrors_cons (front cs : List Char) (h : front.count '"' % 2 = 0) (p : Piece)
    (ps : List Piece) :
    textErrors (front ++ cs) (p :: ps) =
      (badNumbers [p]).map (.badNumber <| String.ofList ·) ++ textErrors cs ps := by
  have hcons : badNumbers (p :: ps) = badNumbers [p] ++ badNumbers ps :=
    List.filterMap_append (l := [p])
  rw [textErrors, textErrors, openText?_append front cs h, hcons, List.map_append,
    List.append_assoc]

theorem faults_word (w : List Char) :
    faults [.word w] = (badNumbers [.word w]).map (.badNumber <| String.ofList ·) := by
  cases hs : startsNumber w <;> cases hi : Number.readInteger? w <;>
    cases hf : Number.readFloat? w <;>
    simp [faults, Piece.fault?, Piece.token, wordToken, badNumbers, hs, hi, hf]

/-- The pieces that are no tokens are the bad numbers and the text that is not closed. -/
theorem faults_eq {cs : List Char} {ps : List Piece} (h : Spelling cs ps) :
    faults ps = textErrors cs ps := by
  induction h with
  | nil => rfl
  | @blank c cs ps hc _ ih =>
    have hquote := (ne_of_isBlank hc).2.2
    have hopen : openText? (c :: cs) = openText? cs :=
      openText?_append [c] cs (by simp [hquote])
    rw [ih, textErrors, textErrors, hopen]
  | @opening cs ps _ ih => exact ih.trans (textErrors_cons ['('] cs rfl .opening ps).symm
  | @closing cs ps _ ih => exact ih.trans (textErrors_cons [')'] cs rfl .closing ps).symm
  | @text s cs ps hs _ ih =>
    have hcount : ('"' :: (s ++ ['"'])).count '"' % 2 = 0 := by
      simp [List.count_eq_zero_of_not_mem hs]
    have hcons := textErrors_cons ('"' :: (s ++ ['"'])) cs hcount (.text s) ps
    rw [List.cons_append, List.append_assoc] at hcons
    exact ih.trans hcons.symm
  | unclosed hs =>
    rw [textErrors, openText?_unclosed hs]
    rfl
  | @word w cs ps hne hw hcs hrest ih =>
    have hcount : w.count '"' = 0 := by
      refine List.count_eq_zero_of_not_mem fun hmem => ?_
      exact (isWordBreak_eq_false (hw _ hmem)).2.2.1 rfl
    rw [textErrors_cons w cs (by rw [hcount]), ← ih, ← faults_word]
    exact List.filterMap_append (l := [_])

namespace Scanner

/-! ## Steps -/

variable {s s' : Scanner} {m m' : Mode}

theorem run_of_step (h : s.step m = (s', some m')) : s.run m = s'.run m' := by
  rw [run]
  split
  · next heq =>
    rw [h] at heq
    cases heq
  · next heq =>
    rw [h] at heq
    cases heq
    rfl

theorem run_of_stop (h : s.step m = (s', none)) : s.run m = s' := by
  rw [run]
  split
  · next heq =>
    rw [h] at heq
    cases heq
    rfl
  · next heq =>
    rw [h] at heq
    cases heq

/-- Characters that pass a test are held up to one that fails it. -/
theorem hold_append (source : List Char) {test : Char → Bool} {run rest : List Char}
    (hrun : ∀ c ∈ run, test c = true) (hrest : ∀ c ∈ rest.head?, test c = false)
    (held : List Char) (found : List Token) (failure : Option ScanError) :
    hold ⟨source, run ++ rest, held, found, failure⟩ test =
      ⟨source, rest, run.reverse ++ held, found, failure⟩ := by
  have htake : rest.takeWhile test = [] := by
    cases rest with
    | nil => rfl
    | cons c rest => simp [hrest c rfl]
  have hdrop : rest.dropWhile test = rest := by
    cases rest with
    | nil => rfl
    | cons c rest => simp [hrest c rfl]
  simp [hold, List.takeWhile_append_of_pos hrun, List.dropWhile_append_of_pos hrun, htake, hdrop]

end Scanner

/-! ## Runs over pieces -/

namespace Scanner

variable (source held : List Char) (found : List Token) (failure : Option ScanError)

theorem run_nil :
    run ⟨source, [], held, found, failure⟩ .between = ⟨source, [], held, found, failure⟩ :=
  run_of_stop rfl

theorem run_blank {c : Char} (hc : Text.isBlank c = true) (cs : List Char) :
    run ⟨source, c :: cs, held, found, failure⟩ .between =
      run ⟨source, cs, [], found, failure⟩ .between := by
  obtain ⟨h1, h2, h3⟩ := ne_of_isBlank hc
  exact run_of_step (by simp [step, Mode.after, hc, h1, h2, h3])

theorem run_opening (cs : List Char) :
    run ⟨source, '(' :: cs, held, found, failure⟩ .between =
      run ⟨source, cs, [], ⟨.openList, String.ofList ('(' :: held).reverse⟩ :: found, failure⟩
        .between :=
  (run_of_step rfl).trans (run_of_step rfl)

theorem run_closing (cs : List Char) :
    run ⟨source, ')' :: cs, held, found, failure⟩ .between =
      run ⟨source, cs, [], ⟨.closeList, String.ofList (')' :: held).reverse⟩ :: found, failure⟩
        .between :=
  (run_of_step rfl).trans (run_of_step rfl)

theorem hold_quoted {s : List Char} (hs : '"' ∉ s) (rest : List Char)
    (hrest : ∀ c ∈ rest.head?, c = '"') :
    hold ⟨source, s ++ rest, [], found, failure⟩ (· != '"') =
      ⟨source, rest, s.reverse, found, failure⟩ := by
  rw [hold_append source ?_ ?_, List.append_nil]
  · intro c hc
    simp only [bne_iff_ne]
    rintro rfl
    exact hs hc
  · intro c hc
    simp [hrest c hc]

theorem run_text {s : List Char} (hs : '"' ∉ s) (cs : List Char) :
    run ⟨source, '"' :: (s ++ '"' :: cs), held, found, failure⟩ .between =
      run ⟨source, cs, [], ⟨.string, String.ofList s⟩ :: found, failure⟩ .between := by
  have hhold := hold_quoted source found failure hs ('"' :: cs) (by simp)
  have hstep : step ⟨source, s ++ '"' :: cs, [], found, failure⟩ .quoted =
      (⟨source, cs, [], ⟨.string, String.ofList s⟩ :: found, failure⟩, some .between) := by
    simp [step, hhold, emit, heldText]
  exact (run_of_step rfl).trans (run_of_step hstep)

theorem run_unclosed {s : List Char} (hs : '"' ∉ s) :
    run ⟨source, '"' :: s, held, found, failure⟩ .between =
      ⟨source, [], s.reverse, found, some (.unterminated (String.ofList s))⟩ := by
  have hhold := hold_quoted source found failure hs [] (by simp)
  rw [List.append_nil] at hhold
  have hstep : step ⟨source, s, [], found, failure⟩ .quoted =
      (⟨source, [], s.reverse, found, failure⟩,
        some (.fail (.unterminated (String.ofList s)))) := by
    simp [step, hhold, heldText]
  exact (run_of_step rfl).trans ((run_of_step hstep).trans (run_of_stop rfl))

/-- The scanner looks one character ahead, which is enough to tell how the word starts. -/
theorem after_eq {c : Char} {w : List Char} (hw : ∀ d ∈ c :: w, isWordBreak d = false)
    {cs : List Char} (hcs : EndsWord cs) :
    Mode.after c (w ++ cs) = if startsNumber (c :: w) then .number else .symbol := by
  obtain ⟨h1, h2, h3, h4⟩ := isWordBreak_eq_false (hw c List.mem_cons_self)
  have hnext : (w ++ cs).head?.any Number.isDigit = w.head?.any Number.isDigit := by
    cases w with
    | cons d w => rfl
    | nil =>
      cases cs with
      | nil => rfl
      | cons d cs =>
        have hbreak := hcs d rfl
        refine Bool.eq_false_iff.2 fun hdigit => ?_
        rw [isWordBreak_of_isDigit hdigit] at hbreak
        cases hbreak
  have hstarts : startsNumber (c :: w) =
      (Number.isDigit c || (Number.isSign c && w.head?.any Number.isDigit)) := by
    cases w with
    | nil => simp [startsNumber]
    | cons d w => rfl
  simp only [Mode.after, h1, h2, h3, h4, hnext, hstarts, Bool.false_eq_true, if_false]

theorem wordToken_of_startsNumber {w : List Char} (h : startsNumber w = true) :
    wordToken w =
      match numberKind? w with
      | some kind => .ok ⟨kind, String.ofList w⟩
      | none => .error (.badNumber (String.ofList w)) := by
  rw [wordToken, if_pos h, numberKind?]
  cases Number.readInteger? w with
  | some n => rfl
  | none => cases Number.readFloat? w <;> rfl

/-- The rest of a word is held together with its first character. -/
theorem hold_word {c : Char} {w : List Char} (hw : ∀ d ∈ c :: w, isWordBreak d = false)
    {cs : List Char} (hcs : EndsWord cs) :
    hold ⟨source, w ++ cs, [c], found, failure⟩ (!isWordBreak ·) =
      ⟨source, cs, (c :: w).reverse, found, failure⟩ := by
  rw [hold_append source ?_ ?_, List.reverse_cons]
  · intro d hd
    simp [hw d (List.mem_cons_of_mem c hd)]
  · intro d hd
    simp [hcs d hd]

theorem run_number {c : Char} {w : List Char} (hw : ∀ d ∈ c :: w, isWordBreak d = false)
    {cs : List Char} (hcs : EndsWord cs) :
    run ⟨source, w ++ cs, [c], found, failure⟩ .number =
      match numberKind? (c :: w) with
      | some kind => run ⟨source, cs, [], ⟨kind, String.ofList (c :: w)⟩ :: found, failure⟩ .between
      | none =>
        ⟨source, cs, (c :: w).reverse, found, some (.badNumber (String.ofList (c :: w)))⟩ := by
  have hhold := hold_word source found failure hw hcs
  have hback : (c :: w).reverse.reverse = c :: w := List.reverse_reverse _
  cases hkind : numberKind? (c :: w) with
  | some kind =>
    refine run_of_step ?_
    simp only [step, hhold, hback, hkind, emit, heldText]
  | none =>
    have hnumber : step ⟨source, w ++ cs, [c], found, failure⟩ .number =
        (⟨source, cs, (c :: w).reverse, found, failure⟩,
          some (.fail (.badNumber (String.ofList (c :: w))))) := by
      simp only [step, hhold, hback, hkind, heldText]
    rw [run_of_step hnumber, run_of_stop rfl]

theorem run_symbol {c : Char} {w : List Char} (hw : ∀ d ∈ c :: w, isWordBreak d = false)
    {cs : List Char} (hcs : EndsWord cs) :
    run ⟨source, w ++ cs, [c], found, failure⟩ .symbol =
      run ⟨source, cs, [], ⟨.symbol, String.ofList (c :: w)⟩ :: found, failure⟩ .between := by
  have hhold := hold_word source found failure hw hcs
  have hback : (c :: w).reverse.reverse = c :: w := List.reverse_reverse _
  have hemit : step ⟨source, cs, (c :: w).reverse, found, failure⟩ (.emit .symbol) =
      (⟨source, cs, [], ⟨.symbol, String.ofList (c :: w)⟩ :: found, failure⟩, some .between) := by
    simp only [step, emit, heldText, hback]
  refine (run_of_step ?_).trans (run_of_step hemit)
  simp only [step, hhold]

/-- A scanner that holds nothing makes of a word what the word is. -/
theorem run_word {w : List Char} (hne : w ≠ []) (hw : ∀ c ∈ w, isWordBreak c = false)
    {cs : List Char} (hcs : EndsWord cs) :
    run ⟨source, w ++ cs, [], found, failure⟩ .between =
      match wordToken w with
      | .ok t => run ⟨source, cs, [], t :: found, failure⟩ .between
      | .error e => ⟨source, cs, w.reverse, found, some e⟩ := by
  obtain ⟨c, w, rfl⟩ := List.exists_cons_of_ne_nil hne
  obtain ⟨-, -, h3, h4⟩ := isWordBreak_eq_false (hw c List.mem_cons_self)
  have hfirst : run ⟨source, c :: (w ++ cs), [], found, failure⟩ .between =
      run ⟨source, w ++ cs, [c], found, failure⟩
        (if startsNumber (c :: w) then .number else .symbol) :=
    run_of_step (by simp [step, h3, h4, after_eq hw hcs])
  rw [List.cons_append, hfirst]
  cases hs : startsNumber (c :: w) with
  | true =>
    rw [if_pos rfl, run_number source found failure hw hcs, wordToken_of_startsNumber hs]
    cases numberKind? (c :: w) <;> rfl
  | false =>
    rw [if_neg Bool.false_ne_true, run_symbol source found failure hw hcs, wordToken, hs]
    rfl

end Scanner

/-! ## Scans -/

/-- What a scanner holds cannot get into a word: it holds nothing, or a break comes next. -/
def Scanner.Ready (s : Scanner) : Prop :=
  s.held = [] ∨ EndsWord s.rest

/-- How a run from one scanner to the other passes the pieces in front of it.  It stops behind the
first that is no token, with the others still to come.  If there is none it finds the tokens of all,
unless it held something before. -/
structure Scanner.Passes (ps : List Piece) (s s' : Scanner) : Prop where
  source : s'.source = s.source
  failure : s'.failure = (faults ps).head?.or s.failure
  ready : s'.Ready
  rest : ∃ later, Spelling s'.rest later ∧ faults later = (faults ps).tail
  found : faults ps = [] → s.held = [] →
    s'.held = [] ∧ s'.rest = [] ∧ ∃ ts, Tokens ps ts ∧ s'.found = ts.reverse ++ s.found

namespace Scanner

theorem Passes.token {p : Piece} {t : Token} (hp : p.token = .ok t) {ps : List Piece}
    {s s₁ s' : Scanner} (h : Passes ps s₁ s') (hsource : s₁.source = s.source)
    (hfailure : s₁.failure = s.failure) (hheld : s₁.held = [])
    (hfound : s.held = [] → s₁.found = t :: s.found) : Passes (p :: ps) s s' := by
  refine ⟨h.source.trans hsource, ?_, h.ready, ?_, fun hnone hclean => ?_⟩
  · rw [h.failure, hfailure, faults_of_ok hp]
  · rw [faults_of_ok hp]
    exact h.rest
  · rw [faults_of_ok hp] at hnone
    obtain ⟨hheld', hrest, ts, hts, hfound'⟩ := h.found hnone hheld
    refine ⟨hheld', hrest, t :: ts, .cons hp hts, ?_⟩
    rw [hfound', hfound hclean, List.reverse_cons, List.append_assoc]
    rfl

/-- A run passes the pieces of the characters in front of it. -/
theorem passes_run {cs : List Char} {ps : List Piece} (h : Spelling cs ps) :
    ∀ s : Scanner, s.rest = cs → s.Ready → Passes ps s (s.run .between) := by
  induction h with
  | nil =>
    rintro ⟨source, _, held, found, failure⟩ rfl hready
    rw [run_nil]
    exact ⟨rfl, rfl, hready, ⟨[], .nil, rfl⟩, fun _ hclean => ⟨hclean, rfl, [], .nil, rfl⟩⟩
  | blank hc _ ih =>
    rintro ⟨source, _, held, found, failure⟩ rfl -
    rw [run_blank source held found failure hc]
    have hrun := ih ⟨source, _, [], found, failure⟩ rfl (.inl rfl)
    exact ⟨hrun.source, hrun.failure, hrun.ready, hrun.rest, fun hnone _ => hrun.found hnone rfl⟩
  | opening _ ih =>
    rintro ⟨source, _, held, found, failure⟩ rfl -
    rw [run_opening]
    refine (ih _ rfl (.inl rfl)).token (t := ⟨.openList, "("⟩) rfl rfl rfl rfl fun hclean => ?_
    cases hclean
    rfl
  | closing _ ih =>
    rintro ⟨source, _, held, found, failure⟩ rfl -
    rw [run_closing]
    refine (ih _ rfl (.inl rfl)).token (t := ⟨.closeList, ")"⟩) rfl rfl rfl rfl fun hclean => ?_
    cases hclean
    rfl
  | text hs _ ih =>
    rintro ⟨source, _, held, found, failure⟩ rfl -
    rw [run_text source held found failure hs]
    exact (ih _ rfl (.inl rfl)).token rfl rfl rfl rfl fun _ => rfl
  | unclosed hs =>
    rintro ⟨source, _, held, found, failure⟩ rfl -
    rw [run_unclosed source held found failure hs]
    exact ⟨rfl, rfl, .inr endsWord_nil, ⟨[], .nil, rfl⟩, nofun⟩
  | @word w cs ps hne hw hcs hrest ih =>
    rintro ⟨source, _, held, found, failure⟩ rfl hready
    -- A word is no break, so the scanner holds nothing when it comes to one.
    obtain rfl : held = [] := by
      refine hready.resolve_right fun hends => ?_
      obtain ⟨c, w, rfl⟩ := List.exists_cons_of_ne_nil hne
      have hbreak := hw c List.mem_cons_self
      rw [hends c rfl] at hbreak
      cases hbreak
    rw [run_word source found failure hne hw hcs]
    cases ht : wordToken w with
    | ok t =>
      have hp : (Piece.word w).token = .ok t := ht
      exact (ih _ rfl (.inl rfl)).token hp rfl rfl rfl fun _ => rfl
    | error e =>
      have hp : (Piece.word w).token = .error e := ht
      refine ⟨rfl, ?_, .inr hcs, ⟨ps, hrest, ?_⟩, fun hnone => ?_⟩
      · rw [faults_of_error hp]
        rfl
      · rw [faults_of_error hp]
        rfl
      · rw [faults_of_error hp] at hnone
        cases hnone

/-! ## One scan after the other -/

/-- What scans that come later will report, where the parentheses are balanced. -/
structure Ahead (es : List ScanError) (s : Scanner) : Prop where
  balanced : isBalanced s.source = true
  ready : s.Ready
  rest : ∃ ps, Spelling s.rest ps ∧ faults ps = es

theorem scan_of_run {s s' : Scanner} (hrun : s.run .between = s')
    (h : isBalanced s.source = true) :
    s.scan = ({ s' with found := if s'.failure.isSome then [] else s'.found }, s'.failure) := by
  subst hrun
  exact if_pos h

/-- A scan reports the next error, or the last one again if there is none. -/
theorem Ahead.scan {es : List ScanError} {s : Scanner} (h : Ahead es s) :
    s.scan.2 = es.head?.or s.failure ∧ s.scan.1.failure = s.scan.2 ∧ Ahead es.tail s.scan.1 ∧
      (s.scan.2 ≠ none → s.scan.1.tokens = []) := by
  obtain ⟨hbalanced, hready, ps, hps, rfl⟩ := h
  obtain ⟨hsource, hfailure, hready', hrest, -⟩ := passes_run hps s rfl hready
  rw [scan_of_run rfl hbalanced]
  refine ⟨hfailure, rfl, ⟨?_, hready', hrest⟩, fun hfail => ?_⟩
  · rw [hsource]
    exact hbalanced
  · rw [tokens, if_pos (Option.isSome_iff_ne_none.2 hfail), List.reverse_nil]

/-- The scanner after some scans. -/
def scans (s : Scanner) : Nat → Scanner
  | 0 => s
  | n + 1 => (s.scans n).scan.1

/-- Each scan takes one error, and the scanner keeps the last. -/
theorem Ahead.scans {es : List ScanError} {s : Scanner} (h : Ahead es s) (hfresh : s.failure = none)
    (n : Nat) : Ahead (es.drop n) (s.scans n) ∧ (s.scans n).failure = (es.take n).getLast? := by
  induction n with
  | zero => exact ⟨h, hfresh⟩
  | succ n ih =>
    obtain ⟨hahead, hlast⟩ := ih
    obtain ⟨hreport, hkeep, hahead', -⟩ := hahead.scan
    rw [List.tail_drop] at hahead'
    refine ⟨hahead', ?_⟩
    show (s.scans n).scan.1.failure = _
    rw [hkeep, hreport, hlast, List.head?_drop, List.take_add_one, List.getLast?_append]
    cases es[n]? <;> rfl

theorem getLast?_take_succ (es : List ScanError) (n : Nat) :
    (es.take (n + 1)).getLast? = es[min n (es.length - 1)]? := by
  rw [List.getLast?_eq_getElem?, List.length_take, List.getElem?_take]
  have hindex : min (n + 1) es.length - 1 = min n (es.length - 1) := by omega
  rw [hindex, if_pos (by omega)]

/-- The scan after `n` others reports the error at that place, or the last if there are fewer. -/
theorem Ahead.report {es : List ScanError} {s : Scanner} (h : Ahead es s)
    (hfresh : s.failure = none) (n : Nat) :
    (s.scans n).scan.2 = es[min n (es.length - 1)]? ∧
      (es ≠ [] → (s.scans n).scan.1.tokens = []) := by
  obtain ⟨-, hkeep, -, hdropped⟩ := (h.scans hfresh n).1.scan
  obtain ⟨-, hlast⟩ := h.scans hfresh (n + 1)
  rw [getLast?_take_succ] at hlast
  have hreport : (s.scans n).scan.2 = es[min n (es.length - 1)]? := hkeep.symm.trans hlast
  refine ⟨hreport, fun hne => hdropped ?_⟩
  have hpos := List.length_pos_of_ne_nil hne
  rw [hreport, ne_eq, List.getElem?_eq_none_iff]
  omega

/-- Scans that meet no error find the same tokens again. -/
theorem scans_of_faults_nil {ps : List Piece} (hfaults : faults ps = []) {s : Scanner}
    (hbalanced : isBalanced s.source = true) (hps : Spelling s.rest ps) (hheld : s.held = [])
    (hfound : s.found = []) (hfresh : s.failure = none) (n : Nat) :
    ∃ ts, Tokens ps ts ∧ s.scans (n + 1) = ⟨s.source, [], [], ts.reverse, none⟩ := by
  induction n with
  | zero =>
    have hpasses := passes_run hps s rfl (.inl hheld)
    cases hrun : s.run .between with
    | mk source rest held found failure =>
      rw [hrun] at hpasses
      obtain ⟨rfl, hfailure, -, -, htokens⟩ := hpasses
      obtain ⟨rfl, rfl, ts, hts, rfl⟩ := htokens hfaults hheld
      obtain rfl : failure = none := by
        rw [hfaults, hfresh] at hfailure
        exact hfailure
      refine ⟨ts, hts, ?_⟩
      show s.scan.1 = _
      rw [scan_of_run hrun hbalanced, hfound, List.append_nil]
      rfl
  | succ n ih =>
    obtain ⟨ts, hts, hscans⟩ := ih
    refine ⟨ts, hts, ?_⟩
    show (s.scans (n + 1)).scan.1 = _
    rw [hscans]
    exact congrArg Prod.fst (scan_of_run (run_nil s.source [] ts.reverse none) hbalanced)

theorem scan_of_unbalanced {s : Scanner} (h : isBalanced s.source = false) :
    s.scan = (s, some .unbalanced) :=
  if_neg (by simp [h])

theorem scans_of_unbalanced {s : Scanner} (h : isBalanced s.source = false) (n : Nat) :
    s.scans n = s := by
  induction n with
  | zero => rfl
  | succ n ih =>
    show (s.scans n).scan.1 = s
    rw [ih, scan_of_unbalanced h]

end Scanner

/-! ## Tokens and scans -/

theorem mapM_token_of_faults {ps : List Piece} {e : ScanError} (h : (faults ps).head? = some e) :
    ps.mapM Piece.token = .error e := by
  induction ps with
  | nil => cases h
  | cons p ps ih =>
    cases hp : p.token with
    | ok t =>
      rw [faults_of_ok hp] at h
      rw [List.mapM_cons, hp, ih h]
      rfl
    | error e' =>
      rw [faults_of_error hp] at h
      cases h
      rw [List.mapM_cons, hp]
      rfl

theorem ahead_start {bytes : List UInt8} (h : isBalanced (Text.decode bytes) = true) :
    (Scanner.start bytes).Ahead (faults (pieces (Text.decode bytes))) :=
  ⟨h, .inl rfl, _, spelling_pieces _, rfl⟩

theorem tokenize_of_tokens {bytes : List UInt8} {ts : List Token}
    (hb : isBalanced (Text.decode bytes) = true) (hts : Tokens (pieces (Text.decode bytes)) ts) :
    tokenize bytes = .ok ts := by
  rw [tokenize, tokenizeText, if_pos hb]
  exact mapM_token_eq_ok_iff.2 hts

/-- The tokens of a text are those of its first scan. -/
theorem tokenize_eq_scan (bytes : List UInt8) :
    tokenize bytes =
      match (Scanner.start bytes).scan with
      | (s, none) => .ok s.tokens
      | (_, some e) => .error e := by
  rw [tokenize, tokenizeText]
  cases hb : isBalanced (Text.decode bytes) with
  | false =>
    rw [Scanner.scan_of_unbalanced hb]
    rfl
  | true =>
    obtain ⟨hreport, -, -, -⟩ := (ahead_start hb).scan
    cases hf : (faults (pieces (Text.decode bytes))).head? with
    | none =>
      obtain ⟨ts, hts, hscan⟩ := Scanner.scans_of_faults_nil (List.head?_eq_none_iff.1 hf)
        (s := Scanner.start bytes) hb (spelling_pieces _) rfl rfl rfl 0
      rw [hf] at hreport
      have heq : (Scanner.start bytes).scan = (⟨_, [], [], ts.reverse, none⟩, none) :=
        Prod.ext hscan hreport
      rw [if_pos rfl, mapM_token_eq_ok_iff.2 hts, heq]
      show Except.ok ts = .ok ts.reverse.reverse
      rw [List.reverse_reverse]
    | some e =>
      rw [hf] at hreport
      rw [if_pos rfl, mapM_token_of_faults hf]
      split
      · next heq =>
        rw [heq] at hreport
        cases hreport
      · next heq =>
        rw [heq] at hreport
        cases hreport
        rfl

/-- What a scanner reports when it is asked once more, after any number of scans.  Every text has
one spelling.  If it is not balanced no scan gets to a token.  Otherwise each scan reports the next
error, or the last one again when there are no more, and without errors each scan has all tokens. -/
theorem scans_textErrors {bytes : List UInt8} {cs : List Char} {ps : List Piece}
    (hcs : Text.Spelled bytes cs) (hps : Spelling (Text.dropMark cs) ps) (n : Nat) :
    let s := (Scanner.start bytes).scans n
    let errors := textErrors (Text.dropMark cs) ps
    (ps.count .opening ≠ ps.count .closing →
        s.scan.2 = some .unbalanced ∧ s.scan.1.tokens = []) ∧
      (ps.count .opening = ps.count .closing → errors = [] →
        s.scan.2 = none ∧ tokenize bytes = .ok s.scan.1.tokens) ∧
      (ps.count .opening = ps.count .closing → errors ≠ [] →
        s.scan.2 = errors[min n (errors.length - 1)]? ∧ s.scan.1.tokens = []) := by
  intro s errors
  have hdecode : Text.dropMark cs = Text.decode bytes := by
    rw [Text.decode, Text.spelled_iff.1 hcs]
  have herrors : faults ps = errors := faults_eq hps
  rw [hdecode] at hps
  obtain rfl := pieces_of_spelling hps
  rw [← herrors]
  refine ⟨fun hcount => ?_, fun hcount hnone => ?_, fun hcount hsome => ?_⟩
  · have hb : isBalanced (Text.decode bytes) = false :=
      Bool.eq_false_iff.2 (mt (isBalanced_iff _).1 hcount)
    have hs : s = Scanner.start bytes := Scanner.scans_of_unbalanced hb n
    rw [hs, Scanner.scan_of_unbalanced hb]
    exact ⟨rfl, rfl⟩
  · have hb := (isBalanced_iff _).2 hcount
    obtain ⟨hreport, -⟩ := (ahead_start hb).report rfl n
    rw [hnone] at hreport
    obtain ⟨ts, hts, hscan⟩ := Scanner.scans_of_faults_nil hnone
      (s := Scanner.start bytes) hb hps rfl rfl rfl n
    have htokens : s.scan.1.tokens = ts.reverse.reverse := congrArg Scanner.tokens hscan
    rw [List.reverse_reverse] at htokens
    exact ⟨hreport, htokens ▸ tokenize_of_tokens hb hts⟩
  · obtain ⟨hreport, hdropped⟩ := (ahead_start ((isBalanced_iff _).2 hcount)).report rfl n
    exact ⟨hreport, hdropped hsome⟩

/-- Two words that start like numbers, one of them right in front of a parenthesis, a text with
another such word, and a quote that nothing closes. -/
def threeErrors : List UInt8 :=
  Text.bytesOf "(1a(x \"2b)\") -3c) \"(d"

/-- The second scan starts with a word held and still reports the second error, and every scan after
the third reports the third. -/
theorem threeErrors_scans :
    ((Scanner.start threeErrors).scans 1).scan.2 = some (.badNumber "-3c") ∧
      ((Scanner.start threeErrors).scans 40).scan.2 = some (.unterminated "(d") ∧
      ((Scanner.start threeErrors).scans 40).scan.1.tokens = [] := by
  have hcs : Text.Spelled threeErrors "(1a(x \"2b)\") -3c) \"(d".toList := Text.spelled_iff.2 rfl
  have hps : Spelling (Text.dropMark "(1a(x \"2b)\") -3c) \"(d".toList)
      [.opening, .word ['1', 'a'], .opening, .word ['x'], .text ['2', 'b', ')'], .closing,
        .word ['-', '3', 'c'], .closing, .unclosed ['(', 'd']] := spelling_iff.2 rfl
  have herrors : textErrors (Text.dropMark "(1a(x \"2b)\") -3c) \"(d".toList)
      [.opening, .word ['1', 'a'], .opening, .word ['x'], .text ['2', 'b', ')'], .closing,
        .word ['-', '3', 'c'], .closing, .unclosed ['(', 'd']] =
      [.badNumber "1a", .badNumber "-3c", .unterminated "(d"] := by rfl
  obtain ⟨-, -, hsecond⟩ := scans_textErrors hcs hps 1
  obtain ⟨-, -, hlater⟩ := scans_textErrors hcs hps 40
  rw [herrors] at hsecond hlater
  have hlater := hlater rfl (List.cons_ne_nil _ _)
  exact ⟨(hsecond rfl (List.cons_ne_nil _ _)).1, hlater.1, hlater.2⟩

end SmallLisp
