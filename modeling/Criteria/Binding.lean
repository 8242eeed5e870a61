import Criteria.Namespace.Lookup
import Criteria.Typing.Check

/-!
# Binding

Binding puts, in the place of every placeholder, the variable or the call that its
path names in a namespace.  A call gets the defaults of the arguments it leaves out.
Parts of a tree without placeholders stay as they are; the bound tree is checked as
a whole.

**Results.**
* `checkCall_variable`: a variable is named exactly by placeholders without arguments.
-/

namespace Criteria

/-- Why a tree cannot be bound. -/
inductive BindingError where
  /-- The path of the placeholder, written out, leads nowhere. -/
  | unbound (placeholder : String) (missing : Missing) (locale : Option String)
  /-- Arguments were given to a variable. -/
  | notCallable (name : String) (found : Nat)
  /-- A function was given `found` arguments where it takes `least` to `most`. -/
  | arity (name : String) (least most found : Nat)
  | type (cause : TypeError)
  | construction (cause : ConstructionError)
deriving DecidableEq

namespace BindingError

/-- How messages name the locale of a search. -/
def localeText : Option String → String
  | some locale => s!" (locale: {locale})"
  | none => ""

def message : BindingError → String
  | unbound placeholder missing locale =>
      s!"Cannot resolve '{placeholder}': no {missing.sought.noun} called " ++
        s!"'{missing.segment}' in {levelName missing.level}{localeText locale}"
  | notCallable name found =>
      s!"'{name}' is a variable and takes no arguments, but got {found}"
  | arity name least most found => arityMessage name least most found
  | type cause => cause.message
  | construction cause => cause.message

def report (e : BindingError) : Report :=
  match e with
  | unbound placeholder missing _ =>
      .binding .unbound e.message (some placeholder)
        (some s!"looked up in {levelName missing.level}")
  | notCallable name _ => .binding .callArity e.message (some name) none
  | arity name _ _ _ => .binding .callArity e.message (some name) none
  | type cause => cause.report
  | construction cause => cause.report

end BindingError

section Target

variable (space : Namespace) (locale : Option String) (p : Placeholder Expr)

/-- The symbol that the path of a placeholder names. -/
def Placeholder.locate : Except BindingError Symbol :=
  (space.locate locale p.fullPath).mapError fun missing =>
    .unbound p.render missing locale

/-- Refuses arguments that the symbol does not take. -/
def Placeholder.checkCall (path : Path) : Symbol → Except BindingError Unit
  | .variable _ =>
      match p.arguments with
      | none => pure ()
      | some arguments => throw (.notCallable path.render arguments.length)
  | .function template =>
      let found := p.argumentList.length
      if found < template.least ∨ template.most < found then
        throw (.arity path.render template.least template.most found)
      else pure ()

/-- What a placeholder is bound to: its path and the symbol there, which takes the
arguments that the placeholder has. -/
def Placeholder.target : Except BindingError (Path × Symbol) := do
  let symbol ← p.locate space locale
  let path ← (Path.ofSegments p.fullPath).mapError .construction
  p.checkCall path symbol
  pure (path, symbol)

end Target

namespace Expr

/-- The tree for a symbol and the bound arguments. -/
def ofTarget (path : Path) (arguments : List Expr) :
    Symbol → Except BindingError Expr
  | .variable template => pure (.variable path template)
  | .function template => (boundCall path template arguments).mapError .construction

section Bind

variable (space : Namespace) (locale : Option String)

mutual

/-- The tree with its placeholders bound, or nothing if it has none. -/
def substitute : Expr → Except BindingError (Option Expr)
  | .constant (.set members) => do
      match ← substituteAll members with
      | none => pure none
      | some members =>
          let bound ← (ofMembers members).mapError .construction
          pure (some bound)
  | .constant (.string _) => pure none
  | .constant (.number _) => pure none
  | .placeholder ⟨scope, name, none⟩ => do
      let (path, symbol) ← Placeholder.target space locale ⟨scope, name, none⟩
      let bound ← ofTarget path [] symbol
      pure (some bound)
  | .placeholder ⟨scope, name, some arguments⟩ => do
      let (path, symbol) ←
        Placeholder.target space locale ⟨scope, name, some arguments⟩
      let changed ← substituteAll arguments
      let bound ← ofTarget path (changed.getD arguments) symbol
      pure (some bound)
  | .variable _ _ => pure none
  | .call path template arguments => do
      let changed ← substituteAll arguments
      pure (changed.map fun arguments => .call path template arguments)
  | .not operand => do
      let changed ← substitute operand
      pure (changed.map .not)
  | .binary op left right => do
      let newLeft ← substitute left
      let newRight ← substitute right
      match newLeft, newRight with
      | none, none => pure none
      | _, _ => pure (some (.binary op (newLeft.getD left) (newRight.getD right)))

/-- The trees of a list with their placeholders bound, or nothing if they have
none. -/
def substituteAll : List Expr → Except BindingError (Option (List Expr))
  | [] => pure none
  | e :: es => do
      let first ← substitute e
      let rest ← substituteAll es
      match first, rest with
      | none, none => pure none
      | _, _ => pure (some (first.getD e :: rest.getD es))

end

/-- The tree with its placeholders bound, not yet checked. -/
def replacePlaceholders (e : Expr) : Except BindingError Expr := do
  let changed ← substitute space locale e
  pure (changed.getD e)

/-- The bound tree, if its placeholders can be bound and it passes the checks. -/
def bind (e : Expr) : Except BindingError Expr := do
  let bound ← e.replacePlaceholders space locale
  (check bound).mapError .type
  pure bound

end Bind

end Expr

section Journals

variable (space : Namespace) (locale : Option String)

/-- What is said before a step from a level down by a segment. -/
def descentEntries (level : Namespace) (segment : String) : List Journal.Entry :=
  [⟨.trace, s!"Descending into '{segment}' from {levelName level.path}"⟩]

/-- What is said while one placeholder is bound. -/
def Placeholder.journal (p : Placeholder Expr) : List Journal.Entry :=
  Namespace.pathEntries locale descentEntries space p.fullPath ++
    match p.locate space locale, Path.ofSegments p.fullPath with
    | .ok symbol, .ok path =>
        [⟨.debug, s!"Resolved '{path.render}' to {symbol.render}"⟩]
    | _, _ => []

/-- What is said while placeholders are bound in turn, up to the first that cannot
be. -/
def journalAll : List (Placeholder Expr) → List Journal.Entry
  | [] => []
  | p :: ps =>
      p.journal space locale ++
        match p.target space locale with
        | .ok _ => journalAll ps
        | .error _ => []

/-- What is said while a tree is bound. -/
def Expr.bindingJournal (e : Expr) : List Journal.Entry :=
  journalAll space locale e.placeholders

end Journals

section Laws

theorem checkCall_variable
    (p : Placeholder Expr) (path : Path) (template : VariableTemplate) :
    p.checkCall path (.variable template) = .ok () ↔ p.arguments = none := by
  cases h : p.arguments <;> simp [Placeholder.checkCall, h, pure, Except.pure, throw,
    throwThe, MonadExceptOf.throw]

end Laws

end Criteria
