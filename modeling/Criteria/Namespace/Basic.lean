import Criteria.Expr.Build
import Criteria.Journal
import Criteria.Namespace.Table
import Criteria.Text.Lowercase

/-!
# Namespaces

A namespace is a tree of levels.  Each level holds objects, which are templates of
variables and functions, and further namespaces; both are known by localized names,
and an object may have the name of a namespace beside it.  A namespace is drafted
freely and then registered as a whole.

Registration writes, at every level, one spelling table for the objects and one for
the namespaces below.  All levels of a registered namespace share what is known of the
locales: which locales its names speak of, and which of these tell capitals apart.

**Results.**
* `Locales.mem_insert`: the known locales are a set, kept in ascending order.
-/

namespace Criteria

/-- A template under which a name can be bound. -/
inductive Symbol where
  | variable (template : VariableTemplate)
  | function (template : FunctionTemplate Expr)

namespace Symbol

def qualifiedName : Symbol → Path
  | .variable t => t.qualifiedName
  | .function t => t.qualifiedName

/-- The global name. -/
def name (s : Symbol) : String :=
  s.qualifiedName.name

/-- The kind of value that the symbol is declared to yield. -/
def kind : Symbol → Option Kind
  | .variable t => t.kind
  | .function t => t.returns

def isFunction : Symbol → Bool
  | .variable _ => false
  | .function _ => true

/-- The text of a symbol. -/
def render : Symbol → String
  | .variable t => s!"variable {t.qualifiedName.render}"
  | .function t => s!"function {t.qualifiedName.render}"

/-- The same template under another qualified name. -/
def moved (qualifiedName : Path) : Symbol → Symbol
  | .variable t => .variable { t with qualifiedName }
  | .function t => .function { t with qualifiedName }

theorem qualifiedName_moved (q : Path) (s : Symbol) : (s.moved q).qualifiedName = q := by
  cases s <;> rfl

end Symbol

/-- A template with its localized names. -/
structure Object where
  names : Names
  symbol : Symbol

namespace Object

/-- The template under its own global name. -/
def ofSymbol (s : Symbol) : Object :=
  ⟨.ofGlobal s.name, s⟩

def withAlias (o : Object) (locale name : String) : Object :=
  { o with names := o.names.withAlias locale name }

end Object

/-- What a whole tree of namespaces knows of locales. -/
structure Locales where
  /-- The locales that are spoken of, in ascending order. -/
  known : List String
  /-- The locales in which capitals make no difference. -/
  folded : List String
deriving DecidableEq

namespace Locales

/-- Adds a locale to an ascending list. -/
def insert (locale : String) : List String → List String
  | [] => [locale]
  | l :: ls =>
      if locale < l then locale :: l :: ls
      else if locale = l then l :: ls
      else l :: insert locale ls

/-- The locales of a list in ascending order, each once. -/
def ascending (locales : List String) : List String :=
  locales.foldr insert []

/-- Whether capitals make no difference in a locale. -/
def isFolded (l : Locales) (locale : String) : Bool :=
  l.folded.contains locale

/-- What a spelling is compared by in a locale. -/
def key (l : Locales) (locale spelling : String) : String :=
  if l.isFolded locale then Text.lowercase spelling else spelling

theorem mem_insert (locale x : String) :
    ∀ ls : List String, x ∈ insert locale ls ↔ x = locale ∨ x ∈ ls
  | [] => by simp [insert]
  | l :: ls => by
      have ih := mem_insert locale x ls
      unfold insert
      split
      · simp
      · split
        · next h => subst h; simp
        · simp only [List.mem_cons, ih]
          constructor
          · rintro (h | h | h)
            · exact Or.inr (Or.inl h)
            · exact Or.inl h
            · exact Or.inr (Or.inr h)
          · rintro (h | h | h)
            · exact Or.inr (Or.inl h)
            · exact Or.inl h
            · exact Or.inr (Or.inr h)

theorem mem_ascending (x : String) :
    ∀ ls : List String, x ∈ ascending ls ↔ x ∈ ls
  | [] => by simp [ascending]
  | l :: ls => by
      show x ∈ insert l (ascending ls) ↔ _
      rw [mem_insert, mem_ascending x ls, List.mem_cons]

end Locales

/-- A namespace that is still being put together. -/
structure Draft where
  names : Names
  objects : List Object
  spaces : List Draft
  /-- The locales declared to make no difference of capitals. -/
  folded : List String

namespace Draft

/-- The empty root. -/
def root : Draft :=
  ⟨.ofGlobal "", [], [], []⟩

/-- An empty namespace to stand below another. -/
def named (name : String) : Draft :=
  ⟨.ofGlobal name, [], [], []⟩

def withAlias (d : Draft) (locale name : String) : Draft :=
  { d with names := d.names.withAlias locale name }

/-- Adds an object. -/
def bind (d : Draft) (o : Object) : Draft :=
  { d with objects := d.objects ++ [o] }

/-- Adds a namespace below. -/
def nest (d space : Draft) : Draft :=
  { d with spaces := d.spaces ++ [space] }

/-- Declares that capitals make no difference in a locale, at every level. -/
def fold (d : Draft) (locale : String) : Draft :=
  { d with folded := d.folded ++ [locale] }

end Draft

/-- A registered level with all levels below it. -/
structure Namespace where
  names : Names
  /-- The global names from the root to this level. -/
  path : List String
  /-- The objects, in the order of registration. -/
  objects : List Object
  /-- The levels below, in the order of registration. -/
  spaces : List Namespace
  /-- The spellings of the objects. -/
  objectTable : SpellingTable
  /-- The spellings of the levels below. -/
  spaceTable : SpellingTable
  locales : Locales

namespace Namespace

/-- The global name of the level; the root may have none. -/
def name (n : Namespace) : String :=
  n.names.global

def isRoot (n : Namespace) : Bool :=
  n.path.isEmpty

end Namespace

/-- How messages call a level. -/
def levelName (path : List String) : String :=
  if path.isEmpty then "the root namespace"
  else s!"namespace '{Path.joinDots path}'"

end Criteria
