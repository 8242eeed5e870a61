import Criteria.Namespace.Registration

/-!
# Lookup

A name is looked up at one level in one locale.  In a locale that the table of the level
knows, an entry answers to its spelling there; without a locale, or in a locale that
is not known, it answers to its global name.  A path of spellings is followed from
level to level, and its last segment names an object.

**Results.**
* `locate_single`: a path of one segment is looked up at the level itself.
* `locate_cons`: a longer path goes down by its first segment.
* `toOption_locate`: the search that reports a missing segment finds what `resolve`
  finds.
-/

namespace Criteria

/-- What a segment was meant to name. -/
inductive Sought where
  | object
  | space
  | symbol
deriving DecidableEq

namespace Sought

def noun : Sought → String
  | object => "object"
  | space => "namespace"
  | symbol => "variable or function"

end Sought

/-- The segment at which a path leads nowhere, and the level reached so far. -/
structure Missing where
  segment : String
  sought : Sought
  level : List String
deriving DecidableEq

namespace Locales

section Entry

variable (l : Locales) (table : SpellingTable) (locale : Option String)

/-- The global name that a name stands for in a locale: what the table says in a
locale that it knows, and otherwise the name itself. -/
def globalName? (name : String) : Option String :=
  match locale.filter table.hasLocale with
  | some here => (table.lookup? here (l.key here name)).map (·.global)
  | none => some name

/-- The entry that answers to a name. -/
def entry? {α : Type} (names : α → Names) (entries : List α) (name : String) :
    Option α :=
  (l.globalName? table locale name).bind fun global =>
    entries.find? fun e => (names e).global = global

end Entry

end Locales

namespace Namespace

section Level

variable (n : Namespace) (locale : Option String)

/-- The object of a level that answers to a name. -/
def object? (name : String) : Option Object :=
  n.locales.entry? n.objectTable locale Object.names n.objects name

/-- The namespace below a level that answers to a name. -/
def space? (name : String) : Option Namespace :=
  n.locales.entry? n.spaceTable locale Namespace.names n.spaces name

end Level

/-- The level at the end of a path of spellings, each of which names a namespace. -/
def level? (n : Namespace) (locale : Option String) : List String → Option Namespace
  | [] => some n
  | segment :: rest =>
      match n.space? locale segment with
      | some s => s.level? locale rest
      | none => none

/-- The symbol at the end of a path of spellings: all but the last lead to a level, at
which the last names an object. -/
def resolve (n : Namespace) (locale : Option String) (path : List String) :
    Option Symbol :=
  match path.getLast? with
  | none => none
  | some name =>
      (n.level? locale path.dropLast).bind fun level =>
        (level.object? locale name).map (·.symbol)

/-- The object at the end of a path of spellings, or where the path leads nowhere. -/
def locate (n : Namespace) (locale : Option String) :
    List String → Except Missing Symbol
  | [] => .error ⟨"", .object, n.path⟩
  | [name] =>
      match n.object? locale name with
      | some o => .ok o.symbol
      | none => .error ⟨name, .symbol, n.path⟩
  | segment :: rest =>
      match n.space? locale segment with
      | some s => s.locate locale rest
      | none => .error ⟨segment, .space, n.path⟩

section Journals

variable (n : Namespace) (locale : Option String)

/-- What is said when a name is found in a locale in which its entry has no alias. -/
def fallbackEntries (table : SpellingTable) (name : String) : List Journal.Entry :=
  match locale.filter table.hasLocale with
  | none => []
  | some here =>
      match table.lookup? here (n.locales.key here name) with
      | some ⟨global, false⟩ =>
          [⟨.warn,
            s!"No '{here}' name registered for '{global}' in " ++
              s!"{levelName n.path}; matched its global name"⟩]
      | _ => []

/-- What is said in the search for an object of a level. -/
def objectEntries (name : String) : List Journal.Entry :=
  n.fallbackEntries locale n.objectTable name

/-- What is said in the search for a namespace below a level. -/
def spaceEntries (name : String) : List Journal.Entry :=
  n.fallbackEntries locale n.spaceTable name

/-- What is said on the way along a path; `descent` is said before each step down. -/
def pathEntries (descent : Namespace → String → List Journal.Entry)
    (n : Namespace) : List String → List Journal.Entry
  | [] => []
  | [name] => n.objectEntries locale name
  | segment :: rest =>
      descent n segment ++ n.spaceEntries locale segment ++
        match n.space? locale segment with
        | some s => pathEntries descent s rest
        | none => []

/-- What is said on the way to a level. -/
def levelEntries (n : Namespace) : List String → List Journal.Entry
  | [] => []
  | segment :: rest =>
      n.spaceEntries locale segment ++
        match n.space? locale segment with
        | some s => levelEntries s rest
        | none => []

end Journals

section Laws

variable (n : Namespace) (locale : Option String)

theorem locate_single (name : String) :
    n.locate locale [name] =
      match n.object? locale name with
      | some o => .ok o.symbol
      | none => .error ⟨name, .symbol, n.path⟩ := by
  rfl

theorem locate_cons (segment next : String) (rest : List String) :
    n.locate locale (segment :: next :: rest) =
      match n.space? locale segment with
      | some s => s.locate locale (next :: rest)
      | none => .error ⟨segment, .space, n.path⟩ := by
  rfl

/-- A search that says where it fails finds the same symbol. -/
theorem toOption_locate (path : List String) :
    (n.locate locale path).toOption = n.resolve locale path := by
  induction path generalizing n with
  | nil => rfl
  | cons segment rest ih =>
      cases rest with
      | nil =>
          simp only [locate_single, resolve, List.getLast?_singleton,
            List.dropLast_singleton, level?, Option.bind_some]
          cases n.object? locale segment <;> rfl
      | cons next rest =>
          simp only [locate_cons, resolve, List.getLast?_cons_cons,
            List.dropLast_cons_cons, level?]
          cases n.space? locale segment with
          | none => cases (next :: rest).getLast? <;> rfl
          | some s => simpa only [resolve] using ih s

end Laws

end Namespace

end Criteria
