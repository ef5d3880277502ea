import Mathlib.Data.List.TakeWhile
import SmallLisp.ModulePath

/-!
# Extensions of module paths

`HasExtension` says what the extension of a path is without saying how it is found: what stands from
the last dot on, if no slash follows that dot, and nothing otherwise.  `extensionOf` finds it
(`extensionOf_eq_iff`).

Appending the default extension to a path without one always gives a source file, whatever dots and
slashes the path has, since neither stands in the extension behind its dot.  So a module path stands
for a source file or is refused (`isSourceFile_of_modulePath`), and a source file stands for itself.
-/

namespace SmallLisp

/-- The extension of a path. -/
inductive HasExtension : List Char → List Char → Prop where
  /-- What follows the dot has neither a dot nor a slash. -/
  | dotted (front : List Char) {rest : List Char} (hdot : '.' ∉ rest) (hslash : '/' ∉ rest) :
      HasExtension (front ++ '.' :: rest) ('.' :: rest)
  /-- Every dot has a slash behind it. -/
  | none {path : List Char} (h : ∀ front rest, path = front ++ '.' :: rest → '/' ∈ rest) :
      HasExtension path []

theorem takeWhile_ne_of_not_mem {c : Char} {cs : List Char} (h : c ∉ cs) (later : List Char) :
    (cs ++ later).takeWhile (· != c) = cs ++ later.takeWhile (· != c) := by
  refine List.takeWhile_append_of_pos fun d hd => ?_
  rw [bne_iff_ne]
  rintro rfl
  exact h hd

theorem not_mem_takeWhile_ne (c : Char) (cs : List Char) : c ∉ cs.takeWhile (· != c) := by
  intro h
  have hne := List.mem_takeWhile_imp h
  simp at hne

/-- The extension starts at the last dot, if no slash comes after it. -/
theorem extensionOf_dotted (front : List Char) {rest : List Char} (hdot : '.' ∉ rest)
    (hslash : '/' ∉ rest) : extensionOf (front ++ '.' :: rest) = '.' :: rest := by
  have hdot' : '.' ∉ rest.reverse := by rwa [List.mem_reverse]
  have hslash' : '/' ∉ rest.reverse := by rwa [List.mem_reverse]
  have hreverse : (front ++ '.' :: rest).reverse = rest.reverse ++ '.' :: front.reverse := by simp
  have helement : (front ++ '.' :: rest).reverse.takeWhile (· != '/') =
      rest.reverse ++ '.' :: front.reverse.takeWhile (· != '/') := by
    rw [hreverse, takeWhile_ne_of_not_mem hslash']
    rfl
  have hcontains : (rest.reverse ++ '.' :: front.reverse.takeWhile (· != '/')).contains '.' =
      true := by simp
  rw [extensionOf, helement, if_pos hcontains, takeWhile_ne_of_not_mem hdot',
    List.takeWhile_cons_of_neg (by decide), List.append_nil, List.reverse_reverse]

/-- A dot in the last element of a path leaves an extension: the last such dot begins it. -/
theorem exists_dotted {path : List Char} (h : '.' ∈ path.reverse.takeWhile (· != '/')) :
    ∃ front rest, path = front ++ '.' :: rest ∧ '.' ∉ rest ∧ '/' ∉ rest := by
  obtain ⟨after, before, hsplit, hdot⟩ := List.eq_append_cons_of_mem h
  have hslash : '/' ∉ after := by
    intro hmem
    refine not_mem_takeWhile_ne '/' path.reverse ?_
    rw [hsplit]
    exact List.mem_append_left _ hmem
  have hpath : path.reverse = after ++ '.' :: before ++ path.reverse.dropWhile (· != '/') := by
    rw [← hsplit, List.takeWhile_append_dropWhile]
  refine ⟨(path.reverse.dropWhile (· != '/')).reverse ++ before.reverse, after.reverse, ?_,
    by rwa [List.mem_reverse], by rwa [List.mem_reverse]⟩
  have hreverse := congrArg List.reverse hpath
  simpa using hreverse

/-- The extension of a path is what `extensionOf` finds. -/
theorem extensionOf_eq_iff {path ext : List Char} :
    extensionOf path = ext ↔ HasExtension path ext := by
  constructor
  · rintro rfl
    by_cases h : '.' ∈ path.reverse.takeWhile (· != '/')
    · obtain ⟨front, rest, rfl, hdot, hslash⟩ := exists_dotted h
      rw [extensionOf_dotted front hdot hslash]
      exact .dotted front hdot hslash
    · have hnone : extensionOf path = [] := by simp [extensionOf, h]
      rw [hnone]
      refine .none fun front rest hpath => ?_
      by_contra hslash
      have hslash' : '/' ∉ rest.reverse := by rwa [List.mem_reverse]
      refine h ?_
      rw [hpath, List.reverse_append, List.reverse_cons, List.append_assoc,
        takeWhile_ne_of_not_mem hslash']
      simp
  · rintro (⟨front, hdot, hslash⟩ | h)
    · exact extensionOf_dotted front hdot hslash
    · unfold extensionOf
      dsimp only
      rw [if_neg]
      intro hdot
      obtain ⟨front, rest, rfl, -, hslash⟩ := exists_dotted (by simpa using hdot)
      exact hslash (h front rest rfl)

/-! ## Source files -/

/-- A source file has one of the two extensions. -/
theorem isSourceFile_iff {path : String} :
    isSourceFile path = true ↔ extensionOf path.toList = defaultExtension ∨
      extensionOf path.toList = shortExtension := by
  simp [isSourceFile]

theorem extensionOf_default (path : String) :
    extensionOf (path ++ String.ofList defaultExtension).toList = defaultExtension := by
  have hdot : '.' ∉ "lisp".toList := by decide
  have hslash : '/' ∉ "lisp".toList := by decide
  rw [String.toList_append, String.toList_ofList]
  exact extensionOf_dotted path.toList hdot hslash

/-- A path without an extension gets the usual one. -/
theorem modulePath_of_extension {path : String} (h : extensionOf path.toList = []) :
    modulePath path = .ok (path ++ String.ofList defaultExtension) := by
  simp [modulePath, h]

/-- The path of a source file is taken as it is. -/
theorem modulePath_of_isSourceFile {path : String} (h : isSourceFile path = true) :
    modulePath path = .ok path := by
  have hne : extensionOf path.toList ≠ [] := by
    rcases isSourceFile_iff.1 h with h | h
    · rw [h]
      decide
    · rw [h]
      decide
  simp [modulePath, hne, h]

/-- Any other extension is an error. -/
theorem modulePath_of_ne {path : String} (hne : extensionOf path.toList ≠ [])
    (h : isSourceFile path ≠ true) :
    modulePath path = .error (.extension (String.ofList (extensionOf path.toList))) := by
  simp [modulePath, hne, h]

/-- A module path stands for a source file, or for none. -/
theorem isSourceFile_of_modulePath {path file : String} (h : modulePath path = .ok file) :
    isSourceFile file = true := by
  by_cases hext : extensionOf path.toList = []
  · rw [modulePath_of_extension hext] at h
    cases h
    exact isSourceFile_iff.2 (.inl (extensionOf_default path))
  · by_cases hsource : isSourceFile path = true
    · rw [modulePath_of_isSourceFile hsource] at h
      cases h
      exact hsource
    · rw [modulePath_of_ne hext hsource] at h
      cases h

theorem exists_modulePath_iff {path : String} :
    (∃ file, modulePath path = .ok file) ↔ HasExtension path.toList [] ∨
      HasExtension path.toList defaultExtension ∨ HasExtension path.toList shortExtension := by
  simp only [← extensionOf_eq_iff, ← isSourceFile_iff]
  constructor
  · rintro ⟨file, h⟩
    by_contra hnot
    obtain ⟨hext, hsource⟩ := not_or.1 hnot
    rw [modulePath_of_ne hext hsource] at h
    cases h
  · rintro (hext | hsource)
    · exact ⟨_, modulePath_of_extension hext⟩
    · exact ⟨_, modulePath_of_isSourceFile hsource⟩

end SmallLisp
