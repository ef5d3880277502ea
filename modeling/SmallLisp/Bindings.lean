import SmallLisp.Value

/-!
# Bindings

The names that one frame binds, each once.  `get?` is the view: two lemmas say what `set` does to
it, and everything else about bindings follows from them.
-/

namespace SmallLisp

/-- Names with their values. -/
structure Bindings where
  /-- The pairs, in the order in which the names were first bound. -/
  entries : List (String × Value) := []
deriving Inhabited

/-- The value paired with a name. -/
def lookupEntry (name : String) : List (String × Value) → Option Value
  | [] => none
  | (n, v) :: rest => if n = name then some v else lookupEntry name rest

/-- The pairs with a name paired anew. -/
def setEntry (name : String) (value : Value) : List (String × Value) → List (String × Value)
  | [] => [(name, value)]
  | (n, v) :: rest =>
    if n = name then (name, value) :: rest else (n, v) :: setEntry name value rest

theorem lookupEntry_setEntry (name other : String) (value : Value)
    (entries : List (String × Value)) :
    lookupEntry other (setEntry name value entries) =
      if other = name then some value else lookupEntry other entries := by
  induction entries with
  | nil =>
    by_cases h : other = name
    · simp [setEntry, lookupEntry, h]
    · simp [setEntry, lookupEntry, h, Ne.symm h]
  | cons entry rest ih =>
    obtain ⟨n, v⟩ := entry
    by_cases hn : n = name <;> by_cases h : other = name
    · simp [setEntry, lookupEntry, hn, h]
    · simp [setEntry, lookupEntry, hn, h, Ne.symm h]
    · subst h
      simp [setEntry, lookupEntry, hn, ih]
    · simp [setEntry, lookupEntry, hn, h, ih]

namespace Bindings

/-- No bindings. -/
def empty : Bindings := {}

/-- The value bound to a name. -/
def get? (b : Bindings) (name : String) : Option Value :=
  lookupEntry name b.entries

/-- The bindings with a name bound anew. -/
def set (b : Bindings) (name : String) (value : Value) : Bindings :=
  { entries := setEntry name value b.entries }

@[simp] theorem get?_empty (name : String) : empty.get? name = none := rfl

/-- Binding a name changes the answer for that name and for no other. -/
theorem get?_set (b : Bindings) (name other : String) (value : Value) :
    (b.set name value).get? other = if other = name then some value else b.get? other :=
  lookupEntry_setEntry name other value b.entries

/-- Binds names to values in order; where a name is repeated the last value stays. -/
def setAll (b : Bindings) : List String → List Value → Bindings
  | name :: names, value :: values => (b.set name value).setAll names values
  | _, _ => b

/-- The bindings with `true` and `false` bound to the truth values. -/
def withBooleans (b : Bindings) : Bindings :=
  (b.set Keyword.trueName.name (.bool true)).set Keyword.falseName.name (.bool false)

theorem get?_withBooleans (b : Bindings) (name : String) :
    b.withBooleans.get? name =
      if name = Keyword.falseName.name then some (.bool false)
      else if name = Keyword.trueName.name then some (.bool true) else b.get? name := by
  rw [withBooleans, get?_set, get?_set]

end Bindings

end SmallLisp
