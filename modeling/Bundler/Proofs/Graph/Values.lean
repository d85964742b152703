import Mathlib.Data.List.Basic
import Bundler.Graph.Value

/-! # Values of expressions

The value of an expression is found by going to what is assigned and to what constants start with, until
there is nothing more to go to.  If that is a literal, this is the value.  It is not known where the way ends
in anything else, and where it comes back to a constant that it has been through.
-/

namespace Bundler.Graph

variable {graph : Graph}

/-- From the expression one comes to the literal, by way of what is assigned and of what the constants that
    are listed start with, in the order in which they are met. -/
inductive ComesTo (graph : Graph) : Expr Label → List DeclId → Literal → Prop where
  | literal {label value} : ComesTo graph (.literal label value) [] value
  | assign {label target value met result} : ComesTo graph value met result →
    ComesTo graph (.assign label target value) met result
  | constant {label name id declaration statement tag exported nameTag binding init met result} :
    graph.denotation? label.id = some id →
    graph.symbols.declarations[id.index]? = some declaration → declaration.kind = .declared statement →
    (graph.nodeAt statement).fragment =
      .statement (.declare tag exported .constant nameTag binding (some init)) →
    ComesTo graph init met result → ComesTo graph (.ident label name) (id :: met) result

theorem constantInit?_eq_some {id : DeclId} {init : Expr Label} :
    graph.constantInit? id = some init ↔ ∃ declaration statement tag exported nameTag binding,
      graph.symbols.declarations[id.index]? = some declaration ∧ declaration.kind = .declared statement ∧
      (graph.nodeAt statement).fragment =
        .statement (.declare tag exported .constant nameTag binding (some init)) := by
  constructor
  · intro starts
    rw [constantInit?] at starts
    split at starts
    next => cases starts
    next declaration found =>
        split at starts
        next statement kind =>
            split at starts
            next tag exported nameTag binding init body =>
                exact ⟨declaration, statement, tag, exported, nameTag, binding, found, kind, starts ▸ body⟩
            next => cases starts
        next => cases starts
  · rintro ⟨declaration, statement, tag, exported, nameTag, binding, found, kind, body⟩
    simp only [constantInit?, found, kind, body]

namespace ComesTo

variable {met : List DeclId} {result : Literal}

theorem of_name {label : Label} {name : String} (comes : ComesTo graph (.ident label name) met result) :
    ∃ id init rest, graph.denotation? label.id = some id ∧ graph.constantInit? id = some init ∧
      met = id :: rest ∧ ComesTo graph init rest result := by
  cases comes with
  | constant denoted found kind body onward =>
      exact ⟨_, _, _, denoted, constantInit?_eq_some.mpr ⟨_, _, _, _, _, _, found, kind, body⟩, rfl, onward⟩

theorem of_constantInit? {label : Label} {name : String} {id : DeclId} {init : Expr Label}
    (denoted : graph.denotation? label.id = some id) (starts : graph.constantInit? id = some init)
    (onward : ComesTo graph init met result) : ComesTo graph (.ident label name) (id :: met) result := by
  obtain ⟨_, _, _, _, _, _, found, kind, body⟩ := constantInit?_eq_some.mp starts
  exact .constant denoted found kind body onward

end ComesTo

/-- From the expression one comes to the literal without meeting a constant twice, or one of those on the
    way to it. -/
def Known (graph : Graph) (onTheWay : List DeclId) (e : Expr Label) (result : Literal) : Prop :=
  ∃ met : List DeclId, met.Nodup ∧ (∀ id ∈ met, id ∉ onTheWay) ∧ ComesTo graph e met result

/-- The value is the literal that one comes to, and is unknown if there is none. -/
def Values (graph : Graph) (onTheWay : List DeclId) (e : Expr Label) (value : PossibleValue) : Prop :=
  ∀ result, value = .literal result ↔ graph.Known onTheWay e result

variable {onTheWay : List DeclId} {e : Expr Label}

theorem values_unknown (none : ∀ met result, (∀ id ∈ met, id ∉ onTheWay) → ¬ ComesTo graph e met result) :
    graph.Values onTheWay e .unknown := by
  intro result
  constructor
  · rintro ⟨⟩
  · rintro ⟨met, -, off, comes⟩
    exact absurd comes (none met result off)

theorem values_literal (label : Label) (value : Literal) :
    graph.Values onTheWay (.literal label value) (.literal value) := by
  intro result
  constructor
  · rintro ⟨⟩
    exact ⟨[], .nil, by simp, .literal⟩
  · rintro ⟨_, -, -, ⟨⟩⟩
    rfl

theorem Values.assign {value : PossibleValue} {body : Expr Label} (label : Label) (target : Expr Label)
    (values : graph.Values onTheWay body value) :
    graph.Values onTheWay (.assign label target body) value := by
  intro result
  rw [values]
  constructor
  · rintro ⟨met, nodup, off, comes⟩
    exact ⟨met, nodup, off, .assign comes⟩
  · rintro ⟨met, nodup, off, ⟨⟩⟩
    exact ⟨met, nodup, off, ‹_›⟩

/-- A constant that is not on the way has the value of what it starts with, from where it is. -/
theorem Values.constant {value : PossibleValue} {label : Label} {id : DeclId} {init : Expr Label}
    (name : String) (denoted : graph.denotation? label.id = some id)
    (starts : graph.constantInit? id = some init) (fresh : id ∉ onTheWay)
    (values : graph.Values (id :: onTheWay) init value) :
    graph.Values onTheWay (.ident label name) value := by
  intro result
  rw [values]
  constructor
  · rintro ⟨met, nodup, off, comes⟩
    refine ⟨id :: met, ?_, ?_, .of_constantInit? denoted starts comes⟩
    · exact List.nodup_cons.mpr ⟨fun member => off id member List.mem_cons_self, nodup⟩
    · refine List.forall_mem_cons.mpr ⟨fresh, fun other member => ?_⟩
      exact fun before => off other member (List.mem_cons_of_mem _ before)
  · rintro ⟨met, nodup, off, comes⟩
    obtain ⟨_, _, rest, denoted', starts', rfl, onward⟩ := comes.of_name
    cases denoted.symm.trans denoted'
    cases starts.symm.trans starts'
    obtain ⟨once, nodup⟩ := List.nodup_cons.mp nodup
    refine ⟨rest, nodup, fun other member before => ?_, onward⟩
    rcases List.mem_cons.mp before with rfl | before
    · exact once member
    · exact off other (List.mem_cons_of_mem _ member) before

/-- One value is added for an expression. -/
theorem gatherExpr_eq (onTheWay : List DeclId) (values : List PossibleValue) (e : Expr Label) :
    ∃ value, graph.gatherExpr onTheWay values e = values.insert value ∧
      graph.Values onTheWay e value := by
  fun_induction gatherExpr graph onTheWay values e with
  | case1 => exact ⟨_, rfl, values_literal _ _⟩
  | case2 onTheWay label target body ih =>
      obtain ⟨value, added, law⟩ := ih
      exact ⟨value, added, law.assign label target⟩
  | case3 onTheWay label name none =>
      refine ⟨_, rfl, values_unknown fun _ _ _ comes => ?_⟩
      obtain ⟨_, _, _, denoted, -⟩ := comes.of_name
      cases none.symm.trans denoted
  | case4 onTheWay label name id denoted none =>
      refine ⟨_, rfl, values_unknown fun _ _ _ comes => ?_⟩
      obtain ⟨_, _, _, denoted', starts, -⟩ := comes.of_name
      cases denoted.symm.trans denoted'
      cases none.symm.trans starts
  | case5 onTheWay label name id denoted init starts fresh ih =>
      obtain ⟨value, added, law⟩ := ih
      exact ⟨value, added, law.constant name denoted starts fresh⟩
  | case6 onTheWay label name id denoted init starts again =>
      refine ⟨_, rfl, values_unknown fun _ _ off comes => ?_⟩
      obtain ⟨_, _, _, denoted', -, rfl, -⟩ := comes.of_name
      cases denoted.symm.trans denoted'
      exact again (off _ List.mem_cons_self)
  | case7 | case8 | case9 => exact ⟨_, rfl, values_unknown fun _ _ _ comes => nomatch comes⟩

/-- Gathering the values of a node adds exactly one to the values that there are, unless it is among them.
    This is the literal to which one comes from the expression, by way of what is assigned and of what
    constants start with, without meeting a declaration twice; and it is unknown if there is no such
    literal. -/
theorem gatherValues_exact (graph : Graph) (id : NodeId) (values : List PossibleValue) :
    ∃ value, graph.gatherValues values id = values.insert value ∧
      ∀ result, value = .literal result ↔ ∃ body met, (graph.nodeAt id).fragment = .expr body ∧
        met.Nodup ∧ ComesTo graph body met result := by
  rw [gatherValues]
  cases fragment : (graph.nodeAt id).fragment with
  | statement body => exact ⟨.unknown, rfl, by simp⟩
  | expr body =>
      obtain ⟨value, added, law⟩ := graph.gatherExpr_eq [] values body
      refine ⟨value, added, fun result => (law result).trans ?_⟩
      constructor
      · rintro ⟨met, nodup, -, comes⟩
        exact ⟨body, met, rfl, nodup, comes⟩
      · rintro ⟨_, met, ⟨⟩, nodup, comes⟩
        exact ⟨met, nodup, by simp, comes⟩

end Bundler.Graph
