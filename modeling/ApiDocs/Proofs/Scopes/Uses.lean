import ApiDocs.Syntax.Tree

set_option autoImplicit false

/-!
The names that a piece of syntax binds and uses. Names are bound from left to right: a parameter is
in reach of the next ones and of the body, a variable of what comes behind its declaration. A use of
a name that is bound before it, in the same piece of syntax, is no use of the whole.
-/

namespace ApiDocs.Syntax

/-! ### Names that are bound -/

mutual

/-- The names that a pattern may bind, those of the patterns inside it included. -/
inductive Pattern.Binds (x : String) : Pattern → Prop where
  | ident {optional : Bool} {type : Option TypeExpr} : Pattern.Binds x (.ident x optional type)
  | array {items : List (Option Pattern)} {optional : Bool} {type : Option TypeExpr}
      {item : Pattern} (listed : some item ∈ items) (bound : item.Binds x) :
      Pattern.Binds x (.array items optional type)
  | object {properties : List PatternProperty} {optional : Bool} {type : Option TypeExpr}
      {property : PatternProperty} (listed : property ∈ properties) (bound : property.Binds x) :
      Pattern.Binds x (.object properties optional type)
  | default {left : Pattern} {value : Expr} {text : String} (bound : left.Binds x) :
      Pattern.Binds x (.default left value text)
  | rest {of : Pattern} {type : Option TypeExpr} (bound : of.Binds x) :
      Pattern.Binds x (.rest of type)

inductive PatternProperty.Binds (x : String) : PatternProperty → Prop where
  | keyed {name : Option String} {value : Pattern} (bound : value.Binds x) :
      PatternProperty.Binds x (.keyed name value)
  | shorthand {value : Option Expr} : PatternProperty.Binds x (.shorthand x value)
  | rest {of : Pattern} (bound : of.Binds x) : PatternProperty.Binds x (.rest of)

end

/-- The names that a statement may bind, those of the blocks inside it included. -/
inductive Stmt.Binds (x : String) : Stmt → Prop where
  | block {statements : List Stmt} {s : Stmt} (listed : s ∈ statements) (bound : s.Binds x) :
      Binds x (.block statements)
  | variableList {isConst : Bool} {declarators : List Declarator} {d : Declarator}
      (listed : d ∈ declarators) (bound : d.name.Binds x) :
      Binds x (.variableList isConst declarators)
  | function {function : FunctionExpr} : Binds x (.function x function)

inductive PatternProperty.Names (x : String) : PatternProperty → Prop where
  | shorthand {value : Option Expr} : Names x (.shorthand x value)

/-- The names that stand in a pattern itself, and not only in a pattern inside it. They are sure to be
bound, even where the patterns inside nest too deep. `this` is no name of a parameter. -/
inductive Pattern.Names (x : String) : Pattern → Prop where
  | ident {optional : Bool} {type : Option TypeExpr} (plain : x ≠ "this") :
      Names x (.ident x optional type)
  | object {properties : List PatternProperty} {optional : Bool} {type : Option TypeExpr}
      {property : PatternProperty} (listed : property ∈ properties) (named : property.Names x) :
      Names x (.object properties optional type)

/-- The names that a statement declares itself. -/
inductive Stmt.Declares (x : String) : Stmt → Prop where
  | variableList {isConst : Bool} {declarators : List Declarator} {d : Declarator}
      (listed : d ∈ declarators) (named : d.name.Names x) :
      Declares x (.variableList isConst declarators)
  | function {function : FunctionExpr} : Declares x (.function x function)

/-- A statement that returns, itself or in a block inside it. -/
inductive Stmt.HasReturn : Stmt → Prop where
  | return {value : Option Expr} : HasReturn (.return value)
  | block {statements : List Stmt} {s : Stmt} (listed : s ∈ statements) (found : s.HasReturn) :
      HasReturn (.block statements)

/-! ### Names that are used -/

/-- The expressions that an expression is put together from. -/
def Expr.operands : Expr → List Expr
  | .array items => items.map Prod.snd
  | .paren of | .wrapped of | .instantiation of _ _ | .await of | .unary _ of | .assign of => [of]
  | .sequence of | .member of _ | .privateMember of => [of]
  | .binary _ left right | .conditional left right | .computed left right => [left, right]
  | .call callee _ args | .new callee _ args => callee :: args
  | _ => []

/-- Of the parts in order, one uses a name that no part before it gives. -/
inductive Exposed {α : Type} (uses gives : α → Prop) : List α → Prop where
  | here {part : α} {rest : List α} (used : uses part) : Exposed uses gives (part :: rest)
  | later {part : α} {rest : List α} (free : ¬ gives part) (used : Exposed uses gives rest) :
      Exposed uses gives (part :: rest)

section

variable {α β : Type} {uses gives : β → Prop}

theorem Exposed.map {f : α → β} {list : List α}
    (exposed : Exposed (fun a => uses (f a)) (fun a => gives (f a)) list) :
    Exposed uses gives (list.map f) := by
  induction exposed with
  | here used => exact .here used
  | later free _ ih => exact .later free ih

theorem Exposed.exists {list : List β} (exposed : Exposed uses gives list) :
    ∃ part ∈ list, uses part := by
  induction exposed with
  | here used => exact ⟨_, List.mem_cons_self, used⟩
  | later _ _ ih =>
      obtain ⟨part, listed, used⟩ := ih
      exact ⟨part, List.mem_cons_of_mem _ listed, used⟩

end

mutual

/-- An expression uses a name that is bound outside it. -/
inductive Expr.Uses (x : String) : Expr → Prop where
  | ident : Expr.Uses x (.ident x)
  | operand {e part : Expr} (inside : part ∈ e.operands) (used : part.Uses x) : Expr.Uses x e
  | object {properties : List ObjectProperty} {property : ObjectProperty}
      (listed : property ∈ properties) (used : property.Uses x) : Expr.Uses x (.object properties)
  | function {function : FunctionExpr} (used : function.Uses x) : Expr.Uses x (.function function)

inductive ObjectProperty.Uses (x : String) : ObjectProperty → Prop where
  | spread {of : Expr} (used : of.Uses x) : ObjectProperty.Uses x (.spread of)
  | shorthand {doc : DocComment} : ObjectProperty.Uses x (.shorthand x doc)
  | keyed {name : String} {value : Expr} {doc : DocComment} (used : value.Uses x) :
      ObjectProperty.Uses x (.keyed name value doc)
  | assign {name : String} {value : Expr} {doc : DocComment} (used : value.Uses x) :
      ObjectProperty.Uses x (.assign name value doc)
  | getter {name : String} {type : Option TypeExpr} {statements : List Stmt} {doc : DocComment}
      (used : Exposed (Stmt.Uses x) (Stmt.Declares x) statements) :
      ObjectProperty.Uses x (.getter name type (some statements) doc)
  | method {name : String} {function : FunctionExpr} {doc : DocComment} (used : function.Uses x) :
      ObjectProperty.Uses x (.method name function doc)

/-- A function uses a name in the default values of its parameters, or in its body. -/
inductive FunctionExpr.Uses (x : String) : FunctionExpr → Prop where
  | params {f : FunctionExpr} (used : Exposed (Pattern.Uses x) (Pattern.Names x) f.params) :
      FunctionExpr.Uses x f
  | body {f : FunctionExpr} (free : ∀ param ∈ f.params, ¬ param.Names x) (used : f.body.Uses x) :
      FunctionExpr.Uses x f

inductive Body.Uses (x : String) : Body → Prop where
  | block {statements : List Stmt} (used : Exposed (Stmt.Uses x) (Stmt.Declares x) statements) :
      Body.Uses x (.block statements)
  | expr {value : Expr} (used : value.Uses x) : Body.Uses x (.expr value)

/-- The default values that the type of a parameter depends on use a name. -/
inductive Pattern.Uses (x : String) : Pattern → Prop where
  | value {left : Pattern} {value : Expr} {text : String} (used : value.Uses x) :
      Pattern.Uses x (.default left value text)
  | left {left : Pattern} {value : Expr} {text : String} (used : left.Uses x) :
      Pattern.Uses x (.default left value text)
  | object {properties : List PatternProperty} {optional : Bool} {type : Option TypeExpr}
      {property : PatternProperty} (listed : property ∈ properties) (used : property.Uses x) :
      Pattern.Uses x (.object properties optional type)

inductive PatternProperty.Uses (x : String) : PatternProperty → Prop where
  | shorthand {name : String} {value : Expr} (used : value.Uses x) :
      PatternProperty.Uses x (.shorthand name (some value))
  | keyed {name : Option String} {value : Pattern} (used : value.Uses x) :
      PatternProperty.Uses x (.keyed name value)

inductive Declarator.Uses (x : String) : Declarator → Prop where
  | init {d : Declarator} {value : Expr} (init : d.init = some value) (used : value.Uses x) :
      Declarator.Uses x d

/-- A statement uses a name that is bound before it. -/
inductive Stmt.Uses (x : String) : Stmt → Prop where
  | return {value : Expr} (used : value.Uses x) : Stmt.Uses x (.return (some value))
  | block {statements : List Stmt} (used : Exposed (Stmt.Uses x) (Stmt.Declares x) statements) :
      Stmt.Uses x (.block statements)
  | variableList {isConst : Bool} {declarators : List Declarator}
      (used : Exposed (Declarator.Uses x) (fun d => d.name.Names x) declarators) :
      Stmt.Uses x (.variableList isConst declarators)
  | function {name : String} {function : FunctionExpr} (used : function.Uses x) :
      Stmt.Uses x (.function name function)

end

theorem Pattern.uses_object {x : String} {properties : List PatternProperty} {optional : Bool}
    {type : Option TypeExpr} (used : ∃ property ∈ properties, property.Uses x) :
    (Pattern.object properties optional type).Uses x := by
  obtain ⟨property, listed, used⟩ := used
  exact .object listed used

/-- Statements use a name that is bound before all of them. -/
def Stmt.UsesIn (x : String) (statements : List Stmt) : Prop :=
  Exposed (Stmt.Uses x) (Stmt.Declares x) statements

end ApiDocs.Syntax
