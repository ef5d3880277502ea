import SmallLisp.Command.Flags
import SmallLisp.Proofs.ModulePath

/-!
# What arguments give

`Gives` says which flags stand in front of which other arguments, by the ways in which a flag with a
value may be written and by what ends the flags.  Nothing is said there of reading from left to
right, of cutting an argument at an equals sign, or of values that are written over.

`Flags.read` takes arguments that give flags, and refuses all others.  Of several values for one
flag it keeps the last one (`Flags.read_eq_ok_iff`).
-/

namespace SmallLisp

/-- A flag with its value. -/
inductive Given where
  | config (path : String)
  | maxDepth (n : Int)
  | trace (on : Bool)

namespace Given

/-- The flag that is given. -/
def flag : Given → Flag
  | config _ => .config
  | maxDepth _ => .maxDepth
  | trace _ => .trace

/-- The text is a spelling of the value. -/
def IsSpelled (text : String) : Given → Prop
  | config path => text = path
  | maxDepth n => Number.readSigned text.toList = .ok n
  | trace on => readTruthValue? text = some on

/-- The settings file, if this is what is given. -/
def config? : Given → Option String
  | config path => some path
  | maxDepth _ | trace _ => none

/-- The depth, if this is what is given. -/
def maxDepth? : Given → Option Int
  | maxDepth n => some n
  | config _ | trace _ => none

/-- Whether to trace, if this is what is given. -/
def trace? : Given → Option Bool
  | trace on => some on
  | config _ | maxDepth _ => none

end Given

/-- Arguments give flags, and the others stand after them. -/
inductive Gives : List String → List Given → List String → Prop where
  | nothing : Gives [] [] []
  /-- Flags end in front of an argument that does not start with a dash, or is one. -/
  | plain {s : String} (h : s = "-" ∨ s.toList.head? ≠ some '-') (rest : List String) :
      Gives (s :: rest) [] (s :: rest)
  /-- Flags end at two dashes. -/
  | ending (rest : List String) : Gives ("--" :: rest) [] rest
  /-- A value may follow an equals sign. -/
  | joined {dashes text : String} {g : Given} {args files : List String} {given : List Given}
      (hdashes : dashes = "-" ∨ dashes = "--") (hg : g.IsSpelled text)
      (h : Gives args given files) :
      Gives ((dashes ++ g.flag.name ++ "=" ++ text) :: args) (g :: given) files
  /-- A value that a flag needs may be an argument of its own. -/
  | apart {dashes text : String} {g : Given} {args files : List String} {given : List Given}
      (hdashes : dashes = "-" ∨ dashes = "--") (hvalue : g.flag.takesValue = true)
      (hg : g.IsSpelled text) (h : Gives args given files) :
      Gives ((dashes ++ g.flag.name) :: text :: args) (g :: given) files
  /-- The flag that needs no value is on without one. -/
  | alone {dashes : String} {args files : List String} {given : List Given}
      (hdashes : dashes = "-" ∨ dashes = "--") (h : Gives args given files) :
      Gives ((dashes ++ Flag.trace.name) :: args) (.trace true :: given) files

/-! ## The form of an argument -/

namespace Argument

/-- What a value after an equals sign adds to a flag. -/
def valueText : Option String → String
  | none => ""
  | some value => "=" ++ value

/-- What a flag may be called. -/
def IsName (name : String) : Prop :=
  ∃ c cs, name.toList = c :: cs ∧ c ≠ '-' ∧ '=' ∉ c :: cs

theorem ofBody_ne (body : List Char) : ofBody body ≠ .plain ∧ ofBody body ≠ .ending := by
  cases body with
  | nil => exact ⟨nofun, nofun⟩
  | cons c cs =>
    simp only [ofBody]
    split
    · exact ⟨nofun, nofun⟩
    · split
      · exact ⟨nofun, nofun⟩
      · exact ⟨nofun, nofun⟩

theorem ofBody_name {name : String} (h : IsName name) (value : Option String) :
    ofBody (name.toList ++ (valueText value).toList) = .flag name value := by
  obtain ⟨c, cs, hname, hdash, hequals⟩ := h
  obtain ⟨hc, hcs⟩ := List.ne_and_not_mem_of_not_mem_cons hequals
  have hnot : ∀ d ∈ cs, (d != '=') = true := fun d hd =>
    bne_iff_ne.2 fun heq => hcs (heq ▸ hd)
  have hofList : String.ofList (c :: cs) = name := by rw [← hname, String.ofList_toList]
  rw [hname, List.cons_append, ofBody, List.takeWhile_append_of_pos hnot,
    List.dropWhile_append_of_pos hnot]
  cases value with
  | none => simp [valueText, hdash, hc.symm, hofList]
  | some text => simp [valueText, hdash, hc.symm, hofList]

/-- What is taken for a flag has the name of one, and its value behind the first equals sign. -/
theorem ofBody_eq_flag {body : List Char} {name : String} {value : Option String}
    (h : ofBody body = .flag name value) :
    IsName name ∧ body = name.toList ++ (valueText value).toList := by
  cases body with
  | nil => cases h
  | cons c cs =>
    simp only [ofBody] at h
    split at h
    · cases h
    · next hc =>
      obtain ⟨hdash, hequals⟩ : c ≠ '-' ∧ c ≠ '=' := by simpa using hc
      have hsplit := List.takeWhile_append_dropWhile (p := (· != '=')) (l := cs)
      have hname : IsName (String.ofList (c :: cs.takeWhile (· != '='))) :=
        ⟨c, _, String.toList_ofList, hdash,
          List.not_mem_cons_of_ne_of_not_mem hequals.symm (not_mem_takeWhile_ne '=' cs)⟩
      split at h
      · next hrest =>
        cases h
        rw [hrest] at hsplit
        refine ⟨hname, ?_⟩
        rw [String.toList_ofList, List.cons_append, valueText, String.toList_empty, hsplit]
      · next d text hrest =>
        cases h
        have hd := List.head?_dropWhile_not (· != '=') cs
        rw [hrest] at hsplit hd
        refine ⟨hname, ?_⟩
        have hd' : d = '=' := by simpa using hd
        subst hd'
        have htext : (valueText (some (String.ofList text))).toList = '=' :: text := by
          simp [valueText]
        rw [String.toList_ofList, htext, List.cons_append, hsplit]

/-- A flag is spelled with one dash or two. -/
theorem ofString_eq_flag_iff {s name : String} {value : Option String} :
    ofString s = .flag name value ↔ ∃ dashes, (dashes = "-" ∨ dashes = "--") ∧ IsName name ∧
      s = dashes ++ name ++ valueText value := by
  constructor
  · intro h
    unfold ofString at h
    split at h
    · cases h
    · next body _ hs =>
      obtain ⟨hname, hbody⟩ := ofBody_eq_flag h
      refine ⟨"--", .inr rfl, hname, String.toList_inj.1 ?_⟩
      simp [hs, hbody]
    · next c body _ _ hs =>
      obtain ⟨hname, hbody⟩ := ofBody_eq_flag h
      refine ⟨"-", .inl rfl, hname, String.toList_inj.1 ?_⟩
      simp [hs, hbody]
    · cases h
  · rintro ⟨dashes, hdashes, hname, rfl⟩
    have hbody := ofBody_name hname value
    obtain ⟨c, cs, hcs, hdash, -⟩ := hname
    rw [hcs, List.cons_append] at hbody
    rcases hdashes with rfl | rfl
    · simp [ofString, hcs, hdash, hbody]
    · simp [ofString, hcs, hbody]

theorem ofString_eq_plain_iff {s : String} :
    ofString s = .plain ↔ s = "-" ∨ s.toList.head? ≠ some '-' := by
  rw [← String.toList_inj]
  unfold ofString
  split
  · next hs => simp [hs]
  · next body _ hs => simp [hs, (ofBody_ne body).1]
  · next c body _ _ hs => simp [hs, (ofBody_ne (c :: body)).1]
  · next h =>
    refine iff_of_true rfl ?_
    cases hs : s.toList with
    | nil => exact .inr nofun
    | cons c cs =>
      by_cases hc : c = '-'
      · subst hc
        cases cs with
        | nil => exact .inl rfl
        | cons d ds => exact absurd hs (h d ds)
      · exact .inr (by simpa using hc)

theorem ofString_eq_ending_iff {s : String} : ofString s = .ending ↔ s = "--" := by
  constructor
  · intro h
    unfold ofString at h
    split at h
    · next hs => exact String.toList_inj.1 hs
    · exact absurd h (ofBody_ne _).2
    · exact absurd h (ofBody_ne _).2
    · cases h
  · rintro rfl
    rfl

end Argument

theorem Flag.isName (flag : Flag) : Argument.IsName flag.name := by
  cases flag with
  | config => exact ⟨'c', "onfig".toList, rfl, by decide, by decide⟩
  | maxDepth => exact ⟨'m', "ax-depth".toList, rfl, by decide, by decide⟩
  | trace => exact ⟨'t', "race".toList, rfl, by decide, by decide⟩

/-- A flag is recognized, with one dash or two. -/
theorem Argument.ofString_flag {dashes : String} (hdashes : dashes = "-" ∨ dashes = "--")
    (flag : Flag) (value : Option String) :
    ofString (dashes ++ flag.name ++ valueText value) = .flag flag.name value :=
  ofString_eq_flag_iff.2 ⟨dashes, hdashes, flag.isName, rfl⟩

theorem Flag.ofName?_eq_some_iff {name : String} {flag : Flag} :
    ofName? name = some flag ↔ name = flag.name := by
  constructor
  · intro h
    have hname : flag.name = name := by simpa using List.find?_some h
    exact hname.symm
  · rintro rfl
    cases flag <;> rfl

/-! ## Reading -/

namespace Flags

/-- Flags with one more value. -/
def put (fs : Flags) : Given → Flags
  | .config path => { fs with config := path }
  | .maxDepth n => { fs with maxDepth := some n }
  | .trace on => { fs with trace := some on }

/-- The last values that are given. -/
def ofGiven (given : List Given) : Flags where
  config := (given.filterMap Given.config?).getLast?.getD ""
  maxDepth := (given.filterMap Given.maxDepth?).getLast?
  trace := (given.filterMap Given.trace?).getLast?

/-- A flag can be set to a text if that spells a value for it. -/
theorem set_eq_ok_iff {fs fs' : Flags} {flag : Flag} {text : String} :
    fs.set flag text = .ok fs' ↔
      ∃ g : Given, g.flag = flag ∧ g.IsSpelled text ∧ fs' = fs.put g := by
  constructor
  · intro h
    cases flag with
    | config =>
      cases h
      exact ⟨.config text, rfl, rfl, rfl⟩
    | maxDepth =>
      simp only [set] at h
      split at h
      · next n hn =>
        cases h
        exact ⟨.maxDepth n, rfl, hn, rfl⟩
      · cases h
    | trace =>
      simp only [set] at h
      split at h
      · next on hon =>
        cases h
        exact ⟨.trace on, rfl, hon, rfl⟩
      · cases h
  · rintro ⟨g, rfl, hg, rfl⟩
    cases g with
    | config path =>
      cases hg
      rfl
    | maxDepth n =>
      have hn : Number.readSigned text.toList = .ok n := hg
      simp only [Given.flag, set, hn]
      rfl
    | trace on =>
      have hon : readTruthValue? text = some on := hg
      simp only [Given.flag, set, hon]
      rfl

/-- Of each flag the last counts. -/
theorem foldl_put (given : List Given) (fs : Flags) :
    given.foldl put fs =
      { config := (given.filterMap Given.config?).getLast?.getD fs.config
        maxDepth := (given.filterMap Given.maxDepth?).getLast?.or fs.maxDepth
        trace := (given.filterMap Given.trace?).getLast?.or fs.trace } := by
  induction given generalizing fs with
  | nil => rfl
  | cons g given ih =>
    rw [List.foldl_cons, ih]
    cases g with
    | config path =>
      simp [put, Given.config?, Given.maxDepth?, Given.trace?, List.getLast?_cons]
    | maxDepth n =>
      simp [put, Given.config?, Given.maxDepth?, Given.trace?, List.getLast?_cons]
    | trace on =>
      simp [put, Given.config?, Given.maxDepth?, Given.trace?, List.getLast?_cons]

/-- Every argument that is read is read as one of the ways to give a flag, and they are all read. -/
theorem gives_of_readOnto {fs fs' : Flags} {args files : List String}
    (h : fs.readOnto args = .ok (fs', files)) :
    ∃ given, Gives args given files ∧ fs' = given.foldl put fs := by
  fun_induction readOnto fs args with
  | case1 fs =>
    cases h
    exact ⟨[], .nothing, rfl⟩
  | case2 fs s rest hs =>
    cases h
    exact ⟨[], .plain (Argument.ofString_eq_plain_iff.1 hs) rest, rfl⟩
  | case3 fs s rest hs =>
    cases h
    rw [Argument.ofString_eq_ending_iff.1 hs]
    exact ⟨[], .ending files, rfl⟩
  | case6 fs s rest name flag text hflag fs₁ hset hs ih =>
    obtain ⟨given, hgives, rfl⟩ := ih h
    obtain ⟨g, rfl, hg, rfl⟩ := set_eq_ok_iff.1 hset
    obtain rfl := Flag.ofName?_eq_some_iff.1 hflag
    obtain ⟨dashes, hdashes, -, rfl⟩ := Argument.ofString_eq_flag_iff.1 hs
    rw [Argument.valueText, ← String.append_assoc]
    exact ⟨g :: given, .joined hdashes hg hgives, rfl⟩
  | case9 fs s name flag hflag htakes text rest fs₁ hset hs ih =>
    obtain ⟨given, hgives, rfl⟩ := ih h
    obtain ⟨g, rfl, hg, rfl⟩ := set_eq_ok_iff.1 hset
    obtain rfl := Flag.ofName?_eq_some_iff.1 hflag
    obtain ⟨dashes, hdashes, -, rfl⟩ := Argument.ofString_eq_flag_iff.1 hs
    rw [Argument.valueText, String.append_empty]
    exact ⟨g :: given, .apart hdashes htakes hg hgives, rfl⟩
  | case11 fs s rest name flag hflag htakes fs₁ hset hs ih =>
    obtain ⟨given, hgives, rfl⟩ := ih h
    obtain ⟨g, rfl, hg, rfl⟩ := set_eq_ok_iff.1 hset
    obtain rfl := Flag.ofName?_eq_some_iff.1 hflag
    obtain ⟨dashes, hdashes, -, rfl⟩ := Argument.ofString_eq_flag_iff.1 hs
    rw [Argument.valueText, String.append_empty]
    cases g with
    | trace on =>
      cases hg
      exact ⟨.trace true :: given, .alone hdashes hgives, rfl⟩
    | config path => exact absurd rfl htakes
    | maxDepth n => exact absurd rfl htakes
  | case4 | case5 | case7 | case8 | case10 | case12 => cases h

/-- Arguments that give flags are accepted, and set them in order. -/
theorem readOnto_of_gives {args files : List String} {given : List Given}
    (h : Gives args given files) (fs : Flags) :
    fs.readOnto args = .ok (given.foldl put fs, files) := by
  induction h generalizing fs with
  | nothing => rfl
  | plain hs rest => simp [readOnto, Argument.ofString_eq_plain_iff.2 hs]
  | ending rest => rfl
  | @joined dashes text g args files given hdashes hg h ih =>
    have hs := Argument.ofString_flag hdashes g.flag (some text)
    rw [Argument.valueText, ← String.append_assoc] at hs
    have hset : fs.set g.flag text = .ok (fs.put g) := set_eq_ok_iff.2 ⟨g, rfl, hg, rfl⟩
    simp [readOnto, hs, Flag.ofName?_eq_some_iff.2 rfl, hset, ih]
  | @apart dashes text g args files given hdashes htakes hg h ih =>
    have hs := Argument.ofString_flag hdashes g.flag none
    rw [Argument.valueText, String.append_empty] at hs
    have hset : fs.set g.flag text = .ok (fs.put g) := set_eq_ok_iff.2 ⟨g, rfl, hg, rfl⟩
    simp [readOnto, hs, Flag.ofName?_eq_some_iff.2 rfl, htakes, hset, ih]
  | @alone dashes args files given hdashes h ih =>
    have hs := Argument.ofString_flag hdashes .trace none
    rw [Argument.valueText, String.append_empty] at hs
    have hset : fs.set .trace "true" = .ok (fs.put (.trace true)) := rfl
    simp [readOnto, hs, Flag.ofName?_eq_some_iff.2 rfl, Flag.takesValue, hset, ih]

/-- Arguments are read if they give flags, and then the last values count. -/
theorem read_eq_ok_iff {args files : List String} {fs : Flags} :
    read args = .ok (fs, files) ↔ ∃ given, Gives args given files ∧ fs = ofGiven given := by
  have hfold : ∀ given : List Given, given.foldl put {} = ofGiven given := fun given => by
    rw [foldl_put, Option.or_none, Option.or_none]
    rfl
  constructor
  · intro h
    obtain ⟨given, hgives, rfl⟩ := gives_of_readOnto h
    exact ⟨given, hgives, hfold given⟩
  · rintro ⟨given, hgives, rfl⟩
    rw [read, readOnto_of_gives hgives, hfold]

end Flags

end SmallLisp
