import Criteria.Proofs.Rendering

/-!
# Unambiguous texts

The text of a tree tells its skeleton, when all names in it are ASCII identifiers.  The
parentheses that are left out can be put back, because an operand stands without them only
if it binds more tightly than the operator above it.

Two texts are compared from the left.  Below an operator of some precedence, the text of an
operand ends where the whole text ends, where something is closed or goes on behind a comma,
or at an operator that binds no more tightly.  So when two operands begin two equal texts,
the operands are equal, and so is what follows them.

**Results.**
* `told_list`: a list is told from what follows its closing sign when its members are.
* `told_of_not_open`, `told_of_open`: an operand is told from what follows when everything
  of less weight is.
* `told`: every operand is told from what follows.
* `skeleton_eq_of_render_eq`: trees that are written alike have the same skeleton.
-/

namespace Criteria

open Text

namespace Outline

/-- What may stand after an operand below an operator. -/
inductive Ends (outer : Nat) : List Char → Prop
  | nil : Ends outer []
  | closing {c : Char} {rest : List Char} : c ∈ [')', '\x7d', ','] → Ends outer (c :: rest)
  | operator {op : BinaryOp} {rest : List Char} : op.level ≤ outer →
      Ends outer (' ' :: (op.symbol.toList ++ ' ' :: rest))

/-- Two operands below operators of one precedence are told from what follows them. -/
def Told (outer : Nat) (o o' : Outline Path) : Prop :=
  ∀ ⦃rest rest'⦄, Ends outer rest → Ends outer rest' →
    o.operandText outer ++ rest = o'.operandText outer ++ rest' → o = o' ∧ rest = rest'

section Ends

variable {outer inner : Nat} {rest : List Char}

theorem Ends.mono (h : Ends outer rest) (hle : outer ≤ inner) : Ends inner rest := by
  cases h with
  | nil => exact .nil
  | closing hc => exact .closing hc
  | operator hop => exact .operator (Nat.le_trans hop hle)

/-- A word, a quoted text and an opening parenthesis cannot stand there. -/
theorem Ends.head (h : Ends outer rest) :
    ∀ c ∈ rest.head?, inWord c = false ∧ c ≠ '(' := by
  cases h with
  | nil => simp
  | @closing c rest hc =>
      intro d hd
      obtain rfl : c = d := by simpa using hd
      simp only [List.mem_cons, List.not_mem_nil, or_false] at hc
      rcases hc with rfl | rfl | rfl <;> decide
  | operator hop =>
      intro d hd
      obtain rfl : ' ' = d := by simpa using hd
      decide

/-- An operator that stands there binds no more tightly. -/
theorem Ends.level_le {op : BinaryOp}
    (h : Ends outer (' ' :: (op.symbol.toList ++ ' ' :: rest))) : op.level ≤ outer := by
  generalize htext : ' ' :: (op.symbol.toList ++ ' ' :: rest) = text at h
  cases h with
  | nil => cases htext
  | closing hc =>
      obtain ⟨rfl, -⟩ := List.cons.inj htext
      exact absurd hc (by decide)
  | operator hop =>
      obtain ⟨rfl, -⟩ := BinaryOp.symbol_append_inj (List.cons.inj htext).2
      exact hop

theorem Told.symm {o o' : Outline Path} (h : Told outer o o') : Told outer o' o := by
  intro rest rest' hrest hrest' heq
  obtain ⟨rfl, rfl⟩ := h hrest' hrest heq.symm
  exact ⟨rfl, rfl⟩

end Ends

section Groups

variable {outer : Nat} {o : Outline Path}

theorem operandText_of_grouped (h : o.isGrouped outer = true) :
    o.operandText outer = '(' :: (o.text ++ [')']) := by
  rw [operandText, enclosed, if_pos h]

theorem operandText_of_not_grouped (h : o.isGrouped outer = false) :
    o.operandText outer = o.text := by
  rw [operandText, enclosed, if_neg (by simp [h])]

theorem isGrouped_zero (o : Outline Path) : o.isGrouped 0 = false := by
  cases o with
  | binary op left right =>
      have := op.level_pos
      simp [isGrouped, isOperation, level]
      omega
  | _ => simp [isGrouped, isOperation, level]

theorem operandText_zero (o : Outline Path) : o.operandText 0 = o.text :=
  operandText_of_not_grouped o.isGrouped_zero

end Groups

section Heads

/-- What a text begins with. -/
inductive Mark where
  | quote
  | number
  | brace
  | word
  | tilde
  | group
deriving DecidableEq

/-- What a text begins with if it begins with this character. -/
def Mark.of? (c : Char) : Option Mark :=
  if startsIdentifier c then some .word
  else if startsNumber c then some .number
  else if c = '"' then some .quote
  else if c = '\x7b' then some .brace
  else if c = '~' then some .tilde
  else if c = '(' then some .group
  else none

theorem startsIdentifier_of_isDigit {c : Char} (h : c.isDigit = true) :
    startsIdentifier c = false := by
  have hne : c ≠ '_' := by
    rintro rfl
    exact absurd h (by decide)
  -- The letters have greater codes than the digits.
  have hdigit : c.val ≤ '9'.val := of_decide_eq_true (Bool.and_eq_true_iff.mp h).2
  have hupper : c.isUpper = false :=
    decide_eq_false fun hletter => absurd (Nat.le_trans hletter.1 hdigit) (by decide)
  have hlower : c.isLower = false := Bool.and_eq_false_imp.mpr fun hletter =>
    absurd (Nat.le_trans (of_decide_eq_true hletter) hdigit) (by decide)
  show (c.isUpper || c.isLower || c == '_') = false
  rw [hupper, hlower, beq_false_of_ne hne]
  rfl

theorem Mark.of?_of_startsIdentifier {c : Char} (h : startsIdentifier c = true) :
    Mark.of? c = some .word := by
  rw [Mark.of?, if_pos h]

theorem Mark.of?_of_startsNumber {c : Char} (h : startsNumber c = true) :
    Mark.of? c = some .number := by
  have hnot : startsIdentifier c = false := by
    rw [startsNumber, Bool.or_eq_true, beq_iff_eq] at h
    rcases h with hdigit | rfl
    · exact startsIdentifier_of_isDigit hdigit
    · decide
  rw [Mark.of?, if_neg (by simp [hnot]), if_pos h]

/-- Whether an operation stands below an operator without parentheses, so that its text
begins with its left operand. -/
def isOpen (outer : Nat) : Outline Path → Bool
  | binary op _ _ => decide (outer < op.level)
  | _ => false

/-- What the text of a skeleton begins with, unless it is that of an operation. -/
def shape : Outline Path → Mark
  | string _ => .quote
  | number _ => .number
  | set _ => .brace
  | name _ => .word
  | call _ _ => .word
  | not _ => .tilde
  | binary _ _ _ => .group

/-- What the text of an operand begins with, unless it is an open operation. -/
def mark (outer : Nat) (o : Outline Path) : Mark :=
  if o.isGrouped outer then .group else o.shape

variable {outer : Nat} {o : Outline Path}

theorem isGrouped_binary (op : BinaryOp) (left right : Outline Path) :
    (binary op left right).isGrouped outer = !(binary op left right).isOpen outer := by
  rw [isGrouped, isOpen, isOperation, level, Bool.true_and, ← decide_not]
  simp

theorem exists_head_of_not_open (h : o.Legible) (hopen : o.isOpen outer = false) :
    ∃ c rest, o.operandText outer = c :: rest ∧ Mark.of? c = some (o.mark outer) := by
  cases hgroup : o.isGrouped outer with
  | true =>
      refine ⟨'(', o.text ++ [')'], operandText_of_grouped hgroup, ?_⟩
      rw [mark, if_pos hgroup]
      decide
  | false =>
      rw [operandText_of_not_grouped hgroup, mark, if_neg (by simp [hgroup])]
      cases h with
      | string s =>
          have hquote : Mark.of? '"' = some .quote := by decide
          exact ⟨'"', _, quoted_toList s, hquote⟩
      | @number written hword =>
          obtain ⟨⟨c, hc, hstarts⟩, -⟩ := hword
          obtain ⟨rest, hrest⟩ := List.head?_eq_some_iff.mp hc
          exact ⟨c, rest, hrest, Mark.of?_of_startsNumber hstarts⟩
      | set _ =>
          have hbrace : Mark.of? '\x7b' = some .brace := by decide
          exact ⟨'\x7b', _, rfl, hbrace⟩
      | @name path hpath =>
          obtain ⟨⟨c, hc, hstarts⟩, -⟩ := hpath.word
          obtain ⟨rest, hrest⟩ := List.head?_eq_some_iff.mp hc
          exact ⟨c, rest, hrest, Mark.of?_of_startsIdentifier hstarts⟩
      | @call path arguments hpath _ =>
          obtain ⟨⟨c, hc, hstarts⟩, -⟩ := hpath.word
          obtain ⟨rest, hrest⟩ := List.head?_eq_some_iff.mp hc
          refine ⟨c, rest ++ '(' :: (textAll arguments ++ [')']), ?_,
            Mark.of?_of_startsIdentifier hstarts⟩
          rw [text, hrest, List.cons_append]
      | not _ =>
          have htilde : Mark.of? '~' = some .tilde := by decide
          exact ⟨'~', _, rfl, htilde⟩
      | @binary op left right _ _ =>
          rw [isGrouped_binary, hopen] at hgroup
          cases hgroup

/-- A text begins with something, and not with the end of a list. -/
theorem exists_head (h : o.Legible) (outer : Nat) :
    ∃ c rest, o.operandText outer = c :: rest ∧ c ∉ [')', '\x7d'] := by
  have unlessOpen {o : Outline Path} {outer : Nat} (h : o.Legible)
      (hopen : o.isOpen outer = false) :
      ∃ c rest, o.operandText outer = c :: rest ∧ c ∉ [')', '\x7d'] := by
    obtain ⟨c, rest, htext, hc⟩ := exists_head_of_not_open h hopen
    refine ⟨c, rest, htext, fun hmem => ?_⟩
    have hnone : Mark.of? c = none := by
      simp only [List.mem_cons, List.not_mem_nil, or_false] at hmem
      rcases hmem with rfl | rfl <;> decide
    rw [hnone] at hc
    cases hc
  have hself := h
  induction h generalizing outer with
  | @binary op left right hleft hright ihleft _ =>
      cases hopen : (binary op left right).isOpen outer with
      | false => exact unlessOpen hself hopen
      | true =>
          obtain ⟨c, rest, htext, hc⟩ := ihleft op.level hleft
          have hgroup : (binary op left right).isGrouped outer = false := by
            rw [isGrouped_binary, hopen, Bool.not_true]
          refine ⟨c, rest ++ ' ' :: (op.symbol.toList ++ ' ' :: right.operandText op.level),
            ?_, hc⟩
          rw [operandText_of_not_grouped hgroup, text, ← operandText, htext, List.cons_append]
          rfl
  | _ => exact unlessOpen hself rfl

end Heads

section Lists

variable {os os' : List (Outline Path)} {c c' : Char} {rest rest' : List Char}

theorem ends_textMore (os : List (Outline Path)) (hc : c ∈ [')', '\x7d']) :
    Ends 0 (textMore os ++ c :: rest) := by
  cases os with
  | nil =>
      refine .closing ?_
      rcases List.mem_cons.mp hc with rfl | hc
      · simp
      · simp [List.mem_singleton.mp hc]
  | cons o os => exact .closing (by simp)

theorem told_more (ih : ∀ o ∈ os, ∀ o' ∈ os', Told 0 o o') (hc : c ∈ [')', '\x7d'])
    (hc' : c' ∈ [')', '\x7d'])
    (h : textMore os ++ c :: rest = textMore os' ++ c' :: rest') :
    os = os' ∧ c :: rest = c' :: rest' := by
  have hcomma : ',' ∉ [')', '\x7d'] := by decide
  induction os generalizing os' with
  | nil =>
      cases os' with
      | nil => exact ⟨rfl, h⟩
      | cons o' os' =>
          obtain ⟨rfl, -⟩ := List.cons.inj h
          exact absurd hc hcomma
  | cons o os hos =>
      cases os' with
      | nil =>
          obtain ⟨rfl, -⟩ := List.cons.inj h
          exact absurd hc' hcomma
      | cons o' os' =>
          simp only [textMore, List.cons_append, List.append_assoc, List.cons.injEq,
            true_and, ← operandText_zero] at h
          obtain ⟨rfl, hmore⟩ := ih o List.mem_cons_self o' List.mem_cons_self
            (ends_textMore os hc) (ends_textMore os' hc') h
          obtain ⟨rfl, hrest⟩ := hos (fun p hp p' hp' =>
            ih p (List.mem_cons_of_mem _ hp) p' (List.mem_cons_of_mem _ hp')) hmore
          exact ⟨rfl, hrest⟩

/-- A list is told from what follows its closing sign when its members are told from what
follows them. -/
theorem told_list (hos : ∀ o ∈ os, o.Legible) (hos' : ∀ o ∈ os', o.Legible)
    (ih : ∀ o ∈ os, ∀ o' ∈ os', Told 0 o o') (hc : c ∈ [')', '\x7d'])
    (hc' : c' ∈ [')', '\x7d'])
    (h : textAll os ++ c :: rest = textAll os' ++ c' :: rest') :
    os = os' ∧ c :: rest = c' :: rest' := by
  cases os with
  | nil =>
      cases os' with
      | nil => exact ⟨rfl, h⟩
      | cons o' os' =>
          obtain ⟨d, tail, htext, hd⟩ := exists_head (hos' o' List.mem_cons_self) 0
          have hfirst : c :: rest = o'.text ++ textMore os' ++ c' :: rest' := h
          rw [← operandText_zero o', htext] at hfirst
          obtain ⟨rfl, -⟩ := List.cons.inj hfirst
          exact absurd hc hd
  | cons o os =>
      cases os' with
      | nil =>
          obtain ⟨d, tail, htext, hd⟩ := exists_head (hos o List.mem_cons_self) 0
          have hfirst : o.text ++ textMore os ++ c :: rest = c' :: rest' := h
          rw [← operandText_zero o, htext] at hfirst
          obtain ⟨rfl, -⟩ := List.cons.inj hfirst
          exact absurd hc' hd
      | cons o' os' =>
          simp only [textAll, List.append_assoc, ← operandText_zero] at h
          obtain ⟨rfl, hmore⟩ := ih o List.mem_cons_self o' List.mem_cons_self
            (ends_textMore os hc) (ends_textMore os' hc') h
          obtain ⟨rfl, hrest⟩ := told_more (fun p hp p' hp' =>
            ih p (List.mem_cons_of_mem _ hp) p' (List.mem_cons_of_mem _ hp')) hc hc' hmore
          exact ⟨rfl, hrest⟩

end Lists

section Operands

variable {outer : Nat} {o o' : Outline Path}

/-- The text of an open operation: its operands with the operator between them. -/
theorem operandText_binary {op : BinaryOp} {left right : Outline Path}
    (hopen : outer < op.level) (rest : List Char) :
    (binary op left right).operandText outer ++ rest =
      left.operandText op.level ++
        ' ' :: (op.symbol.toList ++ ' ' :: (right.operandText op.level ++ rest)) := by
  have hgroup : (binary op left right).isGrouped outer = false := by
    rw [isGrouped_binary, isOpen, decide_eq_true hopen, Bool.not_true]
  rw [operandText_of_not_grouped hgroup, text, operandText, operandText]
  simp only [List.append_assoc, List.cons_append]

theorem told_grouped (hgroup : o.isGrouped outer = true) (hgroup' : o'.isGrouped outer = true)
    (ih : Told 0 o o') : Told outer o o' := by
  intro rest rest' _ _ h
  rw [operandText_of_grouped hgroup, operandText_of_grouped hgroup'] at h
  simp only [List.cons_append, List.append_assoc, List.nil_append, List.cons.injEq,
    true_and] at h
  rw [← operandText_zero o, ← operandText_zero o'] at h
  obtain ⟨rfl, hrest⟩ := ih (.closing (by simp)) (.closing (by simp)) h
  exact ⟨rfl, (List.cons.inj hrest).2⟩

theorem isGrouped_not : (not o).isGrouped outer = decide (5 ≤ outer) :=
  rfl

theorem told_not (hgroup : (not o).isGrouped outer = false) (ih : Told 5 o o') :
    Told outer (not o) (not o') := by
  intro rest rest' hrest hrest' h
  have houter : outer ≤ 5 := by
    have hlt := hgroup
    rw [isGrouped_not, decide_eq_false_iff_not] at hlt
    omega
  have hgroup' : (not o').isGrouped outer = false := by
    rw [isGrouped_not, ← hgroup, isGrouped_not]
  rw [operandText_of_not_grouped hgroup, operandText_of_not_grouped hgroup'] at h
  have hoperands := (List.cons.inj (List.cons.inj h).2).2
  obtain ⟨rfl, hrests⟩ := ih (hrest.mono houter) (hrest'.mono houter) hoperands
  exact ⟨rfl, hrests⟩

/-- The weight of two operands below an operator.  Smaller operands weigh less, and the same
operands weigh less where no operator stands above them. -/
def weight (outer : Nat) (o o' : Outline Path) : Nat :=
  2 * (o.size + o'.size) + min outer 1

/-- Operands of less weight are told from what follows. -/
def BelowTold (outer : Nat) (o o' : Outline Path) : Prop :=
  ∀ inner p p', weight inner p p' < weight outer o o' → p.Legible → p'.Legible →
    Told inner p p'

/-- The members of two lists are told when the lists stand in operands below which all is. -/
theorem BelowTold.members {os os' : List (Outline Path)} (below : BelowTold outer o o')
    (hsize : sizeAll os < o.size) (hsize' : sizeAll os' < o'.size)
    (hos : ∀ p ∈ os, p.Legible) (hos' : ∀ p ∈ os', p.Legible) :
    ∀ p ∈ os, ∀ p' ∈ os', Told 0 p p' := by
  intro p hp p' hp'
  have hle := size_le_of_mem hp
  have hle' := size_le_of_mem hp'
  exact below 0 p p' (by simp only [weight]; omega) (hos p hp) (hos' p' hp')

/-- Two operands that begin alike, neither of them an operation that stands open or in
parentheses. -/
theorem told_of_shape (hlegible : o.Legible) (hlegible' : o'.Legible)
    (hgroup : o.isGrouped outer = false) (hgroup' : o'.isGrouped outer = false)
    (hopen : o.isOpen outer = false) (hshape : o.shape = o'.shape)
    (below : BelowTold outer o o') : Told outer o o' := by
  have hend {rest : List Char} (hrest : Ends outer rest) :
      ∀ c ∈ rest.head?, inWord c = false :=
    fun c hc => (hrest.head c hc).1
  have hparen (rest : List Char) : ∀ c ∈ ('(' :: rest).head?, inWord c = false := by
    have : inWord '(' = false := by decide
    simpa using this
  intro rest rest' hrest hrest' h
  rw [operandText_of_not_grouped hgroup, operandText_of_not_grouped hgroup'] at h
  cases hlegible with
  | string s =>
      cases hlegible' with
      | string s' =>
          obtain ⟨rfl, hrests⟩ := quoted_append_inj h
          exact ⟨rfl, hrests⟩
      | _ => simp [shape] at hshape
  | number hnumber =>
      cases hlegible' with
      | number hnumber' =>
          obtain ⟨hwritten, hrests⟩ :=
            span_append_inj hnumber.2 hnumber'.2 (hend hrest) (hend hrest') h
          rw [String.toList_inj.mp hwritten]
          exact ⟨rfl, hrests⟩
      | _ => simp [shape] at hshape
  | set hmembers =>
      cases hlegible' with
      | set hmembers' =>
          simp only [text, List.cons_append, List.append_assoc, List.nil_append,
            List.cons.injEq, true_and] at h
          have hall := below.members (by simp [size]) (by simp [size]) hmembers hmembers'
          obtain ⟨rfl, hrests⟩ :=
            told_list hmembers hmembers' hall (by simp) (by simp) h
          exact ⟨rfl, (List.cons.inj hrests).2⟩
      | _ => simp [shape] at hshape
  | name hpath =>
      cases hlegible' with
      | name hpath' =>
          obtain ⟨hwritten, hrests⟩ :=
            span_append_inj hpath.word.2 hpath'.word.2 (hend hrest) (hend hrest') h
          rw [hpath.render_inj hpath' hwritten]
          exact ⟨rfl, hrests⟩
      | call hpath' harguments' =>
          simp only [text, List.append_assoc, List.cons_append] at h
          obtain ⟨-, hrests⟩ :=
            span_append_inj hpath.word.2 hpath'.word.2 (hend hrest) (hparen _) h
          exact absurd rfl (hrest.head '(' (by simp [hrests])).2
      | _ => simp [shape] at hshape
  | call hpath harguments =>
      cases hlegible' with
      | name hpath' =>
          simp only [text, List.append_assoc, List.cons_append] at h
          obtain ⟨-, hrests⟩ :=
            span_append_inj hpath.word.2 hpath'.word.2 (hparen _) (hend hrest') h
          exact absurd rfl (hrest'.head '(' (by simp [← hrests])).2
      | call hpath' harguments' =>
          simp only [text, List.append_assoc, List.cons_append, List.nil_append] at h
          obtain ⟨hwritten, hrests⟩ :=
            span_append_inj hpath.word.2 hpath'.word.2 (hparen _) (hparen _) h
          have hall := below.members (by simp [size]) (by simp [size]) harguments harguments'
          obtain ⟨rfl, hclosed⟩ :=
            told_list harguments harguments' hall (by simp) (by simp) (List.cons.inj hrests).2
          rw [hpath.render_inj hpath' hwritten]
          exact ⟨rfl, (List.cons.inj hclosed).2⟩
      | _ => simp [shape] at hshape
  | not hoperand =>
      cases hlegible' with
      | not hoperand' =>
          rw [← operandText_of_not_grouped hgroup, ← operandText_of_not_grouped hgroup'] at h
          have hoperands := below 5 _ _ (by simp [weight, size]; omega) hoperand hoperand'
          exact told_not hgroup hoperands hrest hrest' h
      | _ => simp [shape] at hshape
  | binary _ _ =>
      rw [isGrouped_binary, hopen] at hgroup
      cases hgroup

/-- An operand that is no open operation begins as an operand in parentheses does exactly if
it stands in parentheses. -/
theorem mark_eq_group_iff (hopen : o.isOpen outer = false) :
    o.mark outer = .group ↔ o.isGrouped outer = true := by
  cases hgroup : o.isGrouped outer with
  | true => simp [mark, hgroup]
  | false =>
      cases o with
      | binary op left right =>
          rw [isGrouped_binary, hopen] at hgroup
          cases hgroup
      | _ => simp [mark, hgroup, shape]

theorem told_of_not_open (hlegible : o.Legible) (hlegible' : o'.Legible)
    (hopen : o.isOpen outer = false) (hopen' : o'.isOpen outer = false)
    (below : BelowTold outer o o') : Told outer o o' := by
  intro rest rest' hrest hrest' h
  -- Both begin with one character, so they are of one shape or stand both in parentheses.
  obtain ⟨c, tail, htext, hc⟩ := exists_head_of_not_open hlegible hopen
  obtain ⟨c', tail', htext', hc'⟩ := exists_head_of_not_open hlegible' hopen'
  have hmark : o.mark outer = o'.mark outer := by
    rw [htext, htext', List.cons_append, List.cons_append] at h
    rw [← Option.some_inj, ← hc, ← hc', (List.cons.inj h).1]
  have hiff := mark_eq_group_iff hopen
  rw [hmark, mark_eq_group_iff hopen'] at hiff
  cases hgroup : o.isGrouped outer with
  | true =>
      have houter : outer ≠ 0 := by
        rintro rfl
        rw [isGrouped_zero] at hgroup
        cases hgroup
      have hwithin := below 0 o o' (by simp only [weight]; omega) hlegible hlegible'
      exact told_grouped hgroup (hiff.mpr hgroup) hwithin hrest hrest' h
  | false =>
      have hgroup' : o'.isGrouped outer = false := by
        rw [← Bool.not_eq_true, hiff, hgroup]
        decide
      have hshape : o.shape = o'.shape := by
        rw [mark, mark, hgroup, hgroup'] at hmark
        exact hmark
      exact told_of_shape hlegible hlegible' hgroup hgroup' hopen hshape below hrest hrest' h

/-- Only operations bind less tightly than a text that stands for itself. -/
theorem exists_of_level_lt (h : o.level < 5) : ∃ op left right, o = binary op left right := by
  cases o with
  | binary op left right => exact ⟨op, left, right, rfl⟩
  | _ => exact absurd h (Nat.lt_irrefl 5)

theorem isOpen_iff : o.isOpen outer = true ↔ outer < o.level ∧ o.level < 5 := by
  cases o with
  | binary op left right => simp [isOpen, level, op.level_lt_five]
  | _ => simp [isOpen, level]

/-- Below an operator that binds more tightly an operand has the same text, unless the
operand comes between the two. -/
theorem operandText_congr {inner : Nat} (hle : outer ≤ inner)
    (hlevel : o.level ≤ outer ∨ inner < o.level) :
    o.operandText outer = o.operandText inner := by
  have hiff : o.level ≤ outer ↔ o.level ≤ inner := by omega
  have hgroup : o.isGrouped outer = o.isGrouped inner := by
    rw [isGrouped, isGrouped, decide_eq_decide.mpr hiff]
  rw [operandText, operandText, enclosed, enclosed, hgroup]

variable {op : BinaryOp} {left right left' right' : Outline Path}

/-- An open operation shares no text with an operand that binds more tightly, or that stands
in parentheses: that operand would be the left operand of the operation, with the operator
behind it. -/
theorem told_of_level (hopen : outer < op.level)
    (hlevel : o'.level ≤ outer ∨ op.level < o'.level) (ih : Told op.level left o') :
    Told outer (binary op left right) o' := by
  intro rest rest' hrest hrest' h
  rw [operandText_binary hopen, operandText_congr (Nat.le_of_lt hopen) hlevel] at h
  obtain ⟨rfl, rfl⟩ :=
    ih (.operator (Nat.le_refl _)) (hrest'.mono (Nat.le_of_lt hopen)) h
  have := hrest'.level_le
  omega

/-- Open operations of one precedence are told from what follows when their operands are. -/
theorem told_operation {op' : BinaryOp} (hopen : outer < op.level)
    (hlevel : op'.level = op.level) (hleft : Told op.level left left')
    (hright : Told op.level right right') :
    Told outer (binary op left right) (binary op' left' right') := by
  intro rest rest' hrest hrest' h
  rw [operandText_binary hopen, operandText_binary (hlevel ▸ hopen), hlevel] at h
  obtain ⟨rfl, hbehind⟩ :=
    hleft (.operator (Nat.le_refl _)) (.operator (Nat.le_of_eq hlevel)) h
  obtain ⟨rfl, hoperands⟩ := BinaryOp.symbol_append_inj (List.cons.inj hbehind).2
  obtain ⟨rfl, hrests⟩ :=
    hright (hrest.mono (Nat.le_of_lt hopen)) (hrest'.mono (Nat.le_of_lt hopen)) hoperands
  exact ⟨rfl, hrests⟩

theorem weight_comm (outer : Nat) (o o' : Outline Path) :
    weight outer o o' = weight outer o' o := by
  simp only [weight]
  omega

theorem Legible.operands (h : (Outline.binary op left right).Legible) :
    left.Legible ∧ right.Legible := by
  cases h with
  | binary hleft hright => exact ⟨hleft, hright⟩

/-- An open operation is told from an operand that does not bind less tightly or that stands
in parentheses. -/
theorem told_of_open (hlegible : (binary op left right).Legible) (hlegible' : o'.Legible)
    (hopen : outer < op.level) (hlevel : o'.level ≤ outer ∨ op.level ≤ o'.level)
    (below : BelowTold outer (binary op left right) o') :
    Told outer (binary op left right) o' := by
  obtain ⟨hleft, hright⟩ := hlegible.operands
  by_cases hsame : o'.level = op.level
  · obtain ⟨op', left', right', rfl⟩ := exists_of_level_lt (hsame ▸ op.level_lt_five)
    obtain ⟨hleft', hright'⟩ := hlegible'.operands
    exact told_operation hopen hsame
      (below _ left left' (by simp only [weight, size]; omega) hleft hleft')
      (below _ right right' (by simp only [weight, size]; omega) hright hright')
  · have hwhole := below op.level left o' (by simp only [weight, size]; omega) hleft hlegible'
    exact told_of_level hopen (by omega) hwhole

/-- An operand is told from what follows it, below every operator. -/
theorem told (hlegible : o.Legible) (hlegible' : o'.Legible) : Told outer o o' := by
  induction hweight : weight outer o o' using Nat.strongRecOn generalizing outer o o' with
  | ind n ih =>
      have below : BelowTold outer o o' := fun inner p p' hlt hp hp' =>
        ih _ (hweight ▸ hlt) hp hp' rfl
      have below' : BelowTold outer o' o := fun inner p p' hlt hp hp' =>
        below inner p p' (weight_comm outer o o' ▸ hlt) hp hp'
      have hiff : o.isOpen outer = true ↔ _ := isOpen_iff
      have hiff' : o'.isOpen outer = true ↔ _ := isOpen_iff
      -- Of two open operations the one that binds less tightly is taken, else the only one.
      by_cases hopen : o.isOpen outer = true ∧ (o'.level ≤ outer ∨ o.level ≤ o'.level)
      · obtain ⟨houter, hlt⟩ := hiff.mp hopen.1
        obtain ⟨op, left, right, rfl⟩ := exists_of_level_lt hlt
        exact told_of_open hlegible hlegible' houter hopen.2 below
      · by_cases hopen' : o'.isOpen outer = true
        · obtain ⟨houter', hlt'⟩ := hiff'.mp hopen'
          obtain ⟨op', left', right', rfl⟩ := exists_of_level_lt hlt'
          refine (told_of_open hlegible' hlegible houter' ?_ below').symm
          rw [hiff] at hopen
          rw [level] at *
          omega
        · refine told_of_not_open hlegible hlegible' ?_ (by simpa using hopen') below
          rw [hiff'] at hopen'
          rw [← Bool.not_eq_true, hiff]
          rw [hiff] at hopen
          omega

end Operands

end Outline

namespace Expr

open Outline

/-- Trees that are written alike have the same skeleton, if the names in them are ASCII
identifiers. -/
theorem skeleton_eq_of_render_eq {a b : Expr} (ha : a.Everywhere NamedPlainly)
    (hb : b.Everywhere NamedPlainly) (h : a.render = b.render) : a.skeleton = b.skeleton := by
  have htext : a.skeleton.operandText 0 ++ [] = b.skeleton.operandText 0 ++ [] := by
    rw [operandText_zero, operandText_zero, text_skeleton, text_skeleton, h]
  exact (told (legible_skeleton ha) (legible_skeleton hb) .nil .nil htext).1

/-- Two conditions of different precedences, nested in a call: in one of them the names are
bound, in the other not, and there one of them stands under a namespace. -/
theorem skeleton_eq_of_render_eq_bound :
    let role : VariableTemplate := ⟨⟨["role"]⟩, none⟩
    let check : FunctionTemplate Expr := ⟨⟨["check"]⟩, [⟨"value", none⟩], [], none⟩
    let condition (name : Expr) : Expr :=
      .not (.binary .and (.binary .or name (.string "a\"")) (.number ⟨-15, 1⟩))
    let a : Expr := .placeholder ⟨[], ⟨["check"]⟩, some
      [condition (.placeholder ⟨["user"], ⟨["role"]⟩, none⟩), .set []]⟩
    let b : Expr := .call ⟨["check"]⟩ check
      [condition (.variable ⟨["user", "role"]⟩ role), .set []]
    a.Everywhere NamedPlainly ∧ b.Everywhere NamedPlainly ∧ a.render = b.render ∧
      a.skeleton = b.skeleton := by
  intro role check condition a b
  have ha : a.Everywhere NamedPlainly := by decide
  have hb : b.Everywhere NamedPlainly := by decide
  have h : a.render = b.render := by rfl
  exact ⟨ha, hb, h, skeleton_eq_of_render_eq ha hb h⟩

end Expr
end Criteria
