import EnumNames.Declaration.Expression
import EnumNames.Proofs.Declaration.Syntactic
/-!
# Faults of expressions

The parts of an expression are read by readers that meet faults of syntax only, given that the
readers of the parts nested in them do. Those are tied together level by level, so it holds of them
at every level, and with them of the expressions that stand in place of a bound. A proof splits into
cases only where its reader does so by itself.
-/
-- The instance of a reader repeats those of its parts, so as a term it is large.
set_option synthInstance.maxSize 1000000

namespace EnumNames.Declaration

namespace Grammar

open Reader

/-- The readers of nested parts meet faults of syntax only. -/
class Nested.Syntactic (nested : Nested) : Prop where
  expression : ∀ setting, (nested.expression setting).Syntactic
  operand : ∀ setting, (nested.operand setting).Syntactic
  leading : nested.leading.Syntactic
  right : ∀ setting level, (nested.right setting level).Syntactic
  type : ∀ place, (nested.type place).Syntactic
  bound : ∀ captures constants, (nested.bound captures constants).Syntactic
  pattern : nested.pattern.Syntactic
  statements : nested.statements.Syntactic
  definition : nested.definition.Syntactic
  imports : ∀ rooted, (nested.imports rooted).Syntactic
  fields : nested.fields.Syntactic

attribute [instance] Nested.Syntactic.expression Nested.Syntactic.operand Nested.Syntactic.leading
  Nested.Syntactic.right Nested.Syntactic.type Nested.Syntactic.bound Nested.Syntactic.pattern
  Nested.Syntactic.statements Nested.Syntactic.definition Nested.Syntactic.imports
  Nested.Syntactic.fields

section Parts

variable (nested : Nested) [nested.Syntactic]

/-! ## Annotations -/

instance : namePath.Syntactic := by
  unfold namePath
  infer_instance

instance : (annotationContent nested).Syntactic := by
  have content : ∀ tokens : List Token, Syntactic (match tokens with
      | .opening _ :: _ => do let _ ← anyGroup
      | _ => do
        if ← accept "=" then
          let value ← ahead
          if begins value "#" && begins (second value) (.group .bracket) then
            fail (.flawed .annotationInside)
          let _ ← nested.expression .free) := by
    intro tokens
    split <;> infer_instance
  unfold annotationContent
  infer_instance

instance syntactic_annotationsOf (content : Reader Unit) [content.Syntactic] :
    (annotationsOf content).Syntactic := by
  unfold annotationsOf
  infer_instance

instance : (annotations nested).Syntactic := by
  unfold annotations
  infer_instance

instance : (innerAnnotations nested).Syntactic := by
  unfold innerAnnotations
  infer_instance

/-! ## Members -/

/-- An integer that is no index is a fault of syntax. -/
theorem isSyntactic_of_indexFault? {value : Nat} {suffix : String} {fault : Fault}
    (found : indexFault? value suffix = some fault) : fault.isSyntactic := by
  unfold indexFault? at found
  split at found
  · cases found
    rfl
  · split at found
    · cases found
    · cases found
      rfl

/-- A number whose parts are not all indices is a fault of syntax. -/
theorem isSyntactic_of_indicesFault? {parts : List String} {fault : Fault}
    (found : indicesFault? parts = some fault) : fault.isSyntactic := by
  obtain ⟨part, -, found⟩ := List.exists_of_findSome?_eq_some found
  unfold partFault? at found
  split at found
  · exact isSyntactic_of_indexFault? found
  · cases found
    rfl

instance : member.Syntactic := by
  unfold member
  apply syntactic_bind
  intro tokens
  split
  · split
    · next fault found => exact syntactic_fail (isSyntactic_of_indexFault? found)
    · infer_instance
  · next suffix _ => exact syntactic_fail (by split <;> rfl)
  · infer_instance

instance : indices.Syntactic := by
  unfold indices
  apply syntactic_bind
  intro tokens
  split
  · extract_lets parts ended
    split
    · next fault found => exact syntactic_fail (isSyntactic_of_indicesFault? found)
    · infer_instance
  · next spelling _ => exact syntactic_fail (by split <;> rfl)
  · infer_instance

/-! ## Paths -/

instance : (constant nested).Syntactic := by
  unfold constant
  infer_instance

instance : (angleArguments nested).Syntactic := by
  unfold angleArguments argument
  infer_instance

instance (place : PathPlace) : (segment nested place).Syntactic := by
  unfold segment
  infer_instance

instance (place : PathPlace) (path : PathShape) :
    (furtherSegments nested place path).Syntactic := by
  unfold furtherSegments
  infer_instance

instance (place : PathPlace) : (plainPath nested place).Syntactic := by
  unfold plainPath
  infer_instance

instance (place : PathPlace) : (path nested place).Syntactic := by
  unfold path members
  infer_instance

instance (place : Place) : (result nested place).Syntactic := by
  unfold result
  infer_instance

instance : (callArguments nested).Syntactic := by
  have ending : ∀ shape : Option TypeShape, Syntactic (match shape with
      | none | some .parenthesized => (return true : Reader Bool)
      | some _ => return false) := by
    intro shape
    split <;> infer_instance
  unfold callArguments
  infer_instance

instance (path : PathShape) : (callFollows path).Syntactic := by
  unfold callFollows
  infer_instance

instance (path : PathShape) : (invocation path).Syntactic := by
  unfold invocation
  infer_instance

/-! ## Bounds -/

instance : (optionalBinder nested).Syntactic := by
  unfold optionalBinder binder
  infer_instance

instance (constants : Bool) : (traitBound nested constants).Syntactic := by
  unfold traitBound constantMark
  infer_instance

instance (allowCaptures constants : Bool) : (bound nested allowCaptures constants).Syntactic := by
  unfold bound captures
  infer_instance

instance (sums allowCaptures constants : Bool) :
    (bounds nested sums allowCaptures constants).Syntactic := by
  unfold bounds
  infer_instance

instance (sums : Bool) : (objectBounds nested sums).Syntactic := by
  unfold objectBounds
  infer_instance

/-! ## Types -/

instance : (furtherBounds nested).Syntactic := by
  unfold furtherBounds
  infer_instance

instance : (enclosed nested).Syntactic := by
  unfold enclosed furtherTypes
  infer_instance

instance (place : Place) : (enclosedType nested place).Syntactic := by
  unfold enclosedType
  apply syntactic_bind
  intro shape
  cases shape <;> infer_instance

instance : convention.Syntactic := by
  unfold convention
  infer_instance

instance (place : Place) : (otherType nested place).Syntactic := by
  unfold otherType functionType typeParameters furtherParameters typeParameter
  infer_instance

instance (place : Place) : (type nested place).Syntactic := by
  unfold type pathType calls sumGoesOn
  infer_instance

/-! ## Patterns -/

instance : alternativeFollows.Syntactic := by
  unfold alternativeFollows
  infer_instance

instance : (alternatives nested).Syntactic := by
  unfold alternatives furtherAlternatives
  infer_instance

instance : rangePoints.Syntactic := by
  unfold rangePoints
  infer_instance

instance : (patternBound nested).Syntactic := by
  unfold patternBound constantBlock
  infer_instance

instance : (patternRange nested).Syntactic := by
  unfold patternRange patternPoints
  infer_instance

instance : (pathPattern nested).Syntactic := by
  unfold pathPattern fieldPatterns fieldPattern
  infer_instance

instance : (pattern nested).Syntactic := by
  unfold pattern startlessRange sliceElement namePattern
  infer_instance

/-! ## Blocks -/

instance : (block nested).Syntactic := by
  unfold block
  infer_instance

instance : (annotatedBlock nested).Syntactic := by
  unfold annotatedBlock
  infer_instance

instance : (whileLoop nested).Syntactic := by
  unfold whileLoop
  infer_instance

instance : (forLoop nested).Syntactic := by
  unfold forLoop
  infer_instance

instance : (endlessLoop nested).Syntactic := by
  unfold endlessLoop
  infer_instance

instance (keyword : String) : (markedBlock nested keyword).Syntactic := by
  unfold markedBlock
  infer_instance

/-! ## Parts of operands -/

instance : (anyExpression nested).Syntactic := by
  unfold anyExpression
  infer_instance

instance : (fieldValues nested).Syntactic := by
  unfold fieldValues fieldValue
  infer_instance

instance (setting : Setting) : (pathOperand nested setting).Syntactic := by
  unfold pathOperand
  apply syntactic_bind
  intro path
  apply syntactic_bind
  intro invoked
  split <;> infer_instance

instance : (jumpOperand nested).Syntactic := by
  unfold jumpOperand
  infer_instance

instance (setting : Setting) : (breaking nested setting).Syntactic := by
  unfold breaking
  infer_instance

instance (operand : Shape) : (accesses nested operand).Syntactic := by
  unfold accesses access
  infer_instance

/-! ## Operations -/

instance (setting : Setting) : (rangeTail nested setting).Syntactic := by
  unfold rangeTail
  infer_instance

instance : (conversion nested).Syntactic := by
  unfold conversion
  apply syntactic_bind
  intro _
  apply syntactic_bind
  intro shape
  apply syntactic_bind
  intro tokens
  split <;> infer_instance

instance (setting : Setting) (level : Level) (width : Nat) (left : Shape) :
    (operation nested setting level width left).Syntactic := by
  unfold operation
  infer_instance

instance (setting : Setting) (base : Level) (operand : Shape) :
    (operations nested setting base operand).Syntactic := by
  unfold operations
  apply syntactic_loop
  intro left
  apply syntactic_bind
  intro tokens
  extract_lets level
  split
  · infer_instance
  · split <;> infer_instance

/-! ## Expressions -/

instance (setting : Setting) : (binding nested setting).Syntactic := by
  unfold binding
  infer_instance

instance : (blockForm nested).Syntactic := by
  unfold blockForm conditional matching matchArm labelled
  infer_instance

instance (setting : Setting) : (atom nested setting).Syntactic := by
  unfold atom closure closureParameters builtIn arrayElements
  infer_instance

instance (setting : Setting) : (operand nested setting).Syntactic := by
  unfold operand
  infer_instance

instance (setting : Setting) (level : Level) : (right nested setting level).Syntactic := by
  unfold right
  infer_instance

instance (setting : Setting) : (expression nested setting).Syntactic := by
  unfold expression
  infer_instance

instance : (leading nested).Syntactic := by
  unfold leading
  infer_instance

/-! ## Parameters of definitions -/

instance (signs : List Sign) : (endsBounds signs).Syntactic := by
  unfold endsBounds
  infer_instance

instance : (generics nested).Syntactic := by
  unfold generics parameter lifetimeParameter typeVariable constantParameter
  infer_instance

instance : endsCondition.Syntactic := by
  unfold endsCondition
  infer_instance

instance : (conditions nested).Syntactic := by
  unfold conditions condition
  infer_instance

/-! ## Functions -/

instance : visibility.Syntactic := by
  unfold visibility
  apply syntactic_bind
  intro found
  split
  · apply syntactic_bind
    intro tokens
    split
    · split <;> infer_instance
    · infer_instance
  · infer_instance

instance : (functionParameter nested).Syntactic := by
  unfold functionParameter receiver
  infer_instance

instance : (functionParameters nested).Syntactic := by
  unfold functionParameters
  refine @syntactic_bind _ _ _ _ (syntactic_loop _ _ fun before => ?_) fun _ => inferInstance
  apply syntactic_bind
  intro ended
  split
  · infer_instance
  · apply syntactic_bind
    intro annotated
    apply syntactic_bind
    intro further
    dsimp only
    split
    all_goals
      apply syntactic_bind
      intro kind
      cases kind <;> cases before <;> infer_instance

instance (allowSafe : Bool) : (signature nested allowSafe).Syntactic := by
  unfold signature
  infer_instance

/-! ## Types with fields -/

instance : (fields nested).Syntactic := by
  unfold fields namedField
  infer_instance

instance : (positionalFields nested).Syntactic := by
  unfold positionalFields
  infer_instance

/-! ## Traits and implementations -/

instance : (constantDefinition nested).Syntactic := by
  unfold constantDefinition constantName
  infer_instance

instance (place : ConditionPlace) : (typeDefinition nested place).Syntactic := by
  unfold typeDefinition
  infer_instance

instance (marked : Bool) (others : List Sign) : (macroPart marked others).Syntactic := by
  unfold macroPart macroDefinition
  infer_instance

instance : (implementationPart nested).Syntactic := by
  unfold implementationPart
  infer_instance

instance (foreign : Bool) : (staticDefinition nested foreign).Syntactic := by
  unfold staticDefinition
  infer_instance

instance : (foreignBlock nested).Syntactic := by
  unfold foreignBlock foreignPart
  infer_instance

instance (aliased : Bool) : (traitDefinition nested aliased).Syntactic := by
  unfold traitDefinition traitBody traitPart traitFunction
  infer_instance

instance : (implementation nested).Syntactic := by
  unfold implementation
  infer_instance

/-! ## Definitions -/

instance (rooted : Bool) : (imports nested rooted).Syntactic := by
  unfold imports
  infer_instance

instance : (importDefinition nested).Syntactic := by
  unfold importDefinition
  infer_instance

instance (isVisible : Bool) : (foreignDefinition nested isVisible).Syntactic := by
  unfold foreignDefinition libraryImport
  infer_instance

instance : (groupDefinition nested).Syntactic := by
  unfold groupDefinition
  infer_instance

instance (isVisible : Bool) : (uncheckedDefinition nested isVisible).Syntactic := by
  unfold uncheckedDefinition
  infer_instance

instance : macroRules.Syntactic := by
  unfold macroRules
  infer_instance

instance : namedMacro.Syntactic := by
  unfold namedMacro
  infer_instance

instance : (plainDefinition nested).Syntactic := by
  unfold plainDefinition recordBody enumerationBody variant record
  infer_instance

instance : (definition nested).Syntactic := by
  unfold definition
  infer_instance

/-! ## Statements -/

instance : (statements nested).Syntactic := by
  unfold statements statement localBinding statementForm
  infer_instance

end Parts

/-! ## All levels -/

/-- The readers of nested parts meet faults of syntax only, however many levels there are. -/
instance (levels : Nat) : (nested levels).Syntactic := by
  induction levels with
  | zero => constructor <;> intros <;> exact inferInstanceAs (missing .expression).Syntactic
  | succ levels inner =>
    exact
      { expression := fun _ => inferInstanceAs (expression (nested levels) _).Syntactic
        operand := fun _ => inferInstanceAs (operand (nested levels) _).Syntactic
        leading := inferInstanceAs (leading (nested levels)).Syntactic
        right := fun _ _ => inferInstanceAs (right (nested levels) _ _).Syntactic
        type := fun _ => inferInstanceAs (type (nested levels) _).Syntactic
        bound := fun _ _ => inferInstanceAs (bound (nested levels) _ _).Syntactic
        pattern := inferInstanceAs (pattern (nested levels)).Syntactic
        statements := inferInstanceAs (statements (nested levels)).Syntactic
        definition := inferInstanceAs (definition (nested levels)).Syntactic
        imports := fun _ => inferInstanceAs (imports (nested levels) _).Syntactic
        fields := inferInstanceAs (fields (nested levels)).Syntactic }

end Grammar

namespace Expression

open Reader

instance (tokens : List Token) : (parts tokens).Syntactic := by
  unfold parts
  infer_instance

instance : annotations.Syntactic := by
  have content : Syntactic fun tokens => Grammar.annotationContent (parts tokens) tokens := by
    constructor
    intro tokens
    have inner : (Grammar.annotationContent (parts tokens)).Syntactic := inferInstance
    exact inner.isSyntactic tokens
  exact @Grammar.syntactic_annotationsOf _ content

instance (tokens : List Token) : (refuse tokens : Reader α).Syntactic where
  isSyntactic := by
    intro behind fault failed
    unfold refuse at failed
    split at failed
    · next expressed =>
      cases failed
      have inner : (Grammar.expression (parts tokens) .free).Syntactic := inferInstance
      exact inner.isSyntactic tokens fault expressed
    · next reading _ =>
      cases failed
      cases reading.value <;> rfl

end Expression

end EnumNames.Declaration
