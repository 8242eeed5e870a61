import Criteria.Namespace.Basic

/-!
# Registration

A draft is registered as a whole.  At every level the objects must have different
global names and, in every locale that the draft speaks of anywhere, different
spellings; the same holds of the namespaces of a level, apart from its objects.
Global names must be valid segments and function templates must be free of faults.
Each template then gets the qualified name that its place gives it, and the spellings
of a level are written into its tables.
-/

namespace Criteria

/-- The two tables of a level, in which names must be different. -/
inductive Shelf where
  | objects
  | spaces
deriving DecidableEq

namespace Shelf

/-- What messages call the entries of a table. -/
def noun : Shelf → String
  | objects => "objects"
  | spaces => "sub-namespaces"

end Shelf

/-- Why a draft cannot be registered. -/
inductive RegistrationError where
  /-- Two entries of one table of the level have this global name. -/
  | duplicateGlobal (shelf : Shelf) (level : List String) (name : String)
  /-- Two entries of one table of the level are spelled alike in the locale. -/
  | duplicateSpelling (shelf : Shelf) (level : List String) (name locale : String)
  | construction (cause : ConstructionError)
deriving DecidableEq

namespace RegistrationError

def message : RegistrationError → String
  | duplicateGlobal shelf level name =>
      s!"Two or more {shelf.noun} in {levelName level} " ++
        s!"share the global name '{name}'"
  | duplicateSpelling shelf level name locale =>
      s!"The name '{name}' is shared by two or more {shelf.noun} " ++
        s!"in {levelName level} (locale: {locale})"
  | construction cause => cause.message

def report (e : RegistrationError) : Report :=
  match e with
  | duplicateGlobal _ level _ =>
      .registration .duplicateGlobal e.message (some (levelName level))
  | duplicateSpelling _ level _ _ =>
      .registration .duplicateSpelling e.message (some (levelName level))
  | construction cause => cause.report

end RegistrationError

namespace Draft

mutual

/-- The locales in which the draft has aliases, at any level. -/
def aliasLocales : Draft → List String
  | ⟨names, objects, spaces, _⟩ =>
      names.locales ++ objects.flatMap (·.names.locales) ++ aliasLocalesAll spaces

def aliasLocalesAll : List Draft → List String
  | [] => []
  | d :: ds => aliasLocales d ++ aliasLocalesAll ds

end

mutual

/-- The locales in which the draft makes no difference of capitals, declared at any
level. -/
def foldedLocales : Draft → List String
  | ⟨_, _, spaces, folded⟩ => folded ++ foldedLocalesAll spaces

def foldedLocalesAll : List Draft → List String
  | [] => []
  | d :: ds => foldedLocales d ++ foldedLocalesAll ds

end

/-- What the whole draft knows of locales. -/
def locales (d : Draft) : Locales where
  known := Locales.ascending (d.aliasLocales ++ d.foldedLocales)
  folded := d.foldedLocales

end Draft

section Levels

variable (locales : Locales) (path : List String)

/-- The qualified name that a level gives to an entry. -/
def qualify (name : String) : Except RegistrationError Path :=
  (Path.ofSegments (path ++ [name])).mapError .construction

/-- An object in its place: its template is free of faults and gets a qualified
name. -/
def placeObject (o : Object) : Except RegistrationError Object := do
  let qualified ← qualify path o.names.global
  match o.symbol with
  | .variable _ => pure ()
  | .function t => t.validate.mapError .construction
  pure { o with symbol := o.symbol.moved qualified }

/-- The objects of a level in their places, none with a global name already taken. -/
def placeObjects (taken : List String) :
    List Object → Except RegistrationError (List Object)
  | [] => pure []
  | o :: os =>
      if o.names.global ∈ taken then
        .error (.duplicateGlobal .objects path o.names.global)
      else do
        let placed ← placeObject path o
        let rest ← placeObjects (o.names.global :: taken) os
        pure (placed :: rest)

/-- Writes the spellings of the entries in a locale into their table, unless two of
them are spelled alike. -/
def fillTable (shelf : Shelf) (locale : String) (table : SpellingTable) :
    List Names → Except RegistrationError SpellingTable
  | [] => pure table
  | n :: ns =>
      let spelling := n.spelling (some locale)
      let entry : Spelling := ⟨n.global, (n.alias? locale).isSome⟩
      match table.insert? locale (locales.key locale spelling) entry with
      | none => .error (.duplicateSpelling shelf path spelling locale)
      | some table => fillTable shelf locale table ns

/-- Writes the spellings of a level, locale by locale, into the tables of its objects
and of the namespaces below. -/
def fillTables (objects spaces : List Names)
    (objectTable spaceTable : SpellingTable) :
    List String → Except RegistrationError (SpellingTable × SpellingTable)
  | [] => pure (objectTable, spaceTable)
  | locale :: rest => do
      let objectTable ← fillTable locales path .objects locale objectTable objects
      let spaceTable ← fillTable locales path .spaces locale spaceTable spaces
      fillTables objects spaces objectTable spaceTable rest

end Levels

mutual

/-- A level in its place, with all levels below it. -/
def Draft.place (locales : Locales) (path : List String) :
    Draft → Except RegistrationError Namespace
  | ⟨names, objects, spaces, _⟩ => do
      let objects ← placeObjects path [] objects
      let spaces ← placeSpaces locales path [] spaces
      let (objectTable, spaceTable) ← fillTables locales path
        (objects.map (·.names)) (spaces.map (·.names)) .empty .empty locales.known
      pure ⟨names, path, objects, spaces, objectTable, spaceTable, locales⟩

/-- The namespaces below a level, none with a global name already taken. -/
def placeSpaces (locales : Locales) (path taken : List String) :
    List Draft → Except RegistrationError (List Namespace)
  | [] => pure []
  | d :: ds =>
      if d.names.global ∈ taken then
        .error (.duplicateGlobal .spaces path d.names.global)
      else do
        let qualified ← qualify path d.names.global
        let placed ← d.place locales qualified.segments
        let rest ← placeSpaces locales path (d.names.global :: taken) ds
        pure (placed :: rest)

end

namespace Draft

/-- The path of the root: none without a name, else the name as its one segment. -/
def rootPath (d : Draft) : Except RegistrationError (List String) :=
  if d.names.global = "" then pure []
  else do
    let path ← (Path.single d.names.global).mapError .construction
    pure path.segments

/-- The namespace of a draft that has no conflict. -/
def register (d : Draft) : Except RegistrationError Namespace := do
  let path ← d.rootPath
  d.place d.locales path

end Draft

namespace Namespace

/-- The texts of a list of names, between braces and commas. -/
def renderSet (names : List String) : String :=
  "\x7b" ++ ", ".intercalate (names.map Text.shown) ++ "\x7d"

/-- What is said when a namespace has been registered. -/
def registered (n : Namespace) : Journal.Entry :=
  ⟨.debug,
    s!"Built namespace with {n.objects.length} objects and " ++
      s!"{n.spaces.length} sub-namespaces at the root " ++
      s!"(locales: {renderSet n.locales.known})"⟩

end Namespace

end Criteria
