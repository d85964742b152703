import Bundler.Proofs.Graph.Exploration

/-! # Members of namespaces

An access that leads beyond all namespaces is evaluated as written, and its object is resolved on its own.
The object is a shorter chain with the same root, so its keys are followed along the same way, on which no
key has been missing.
-/

namespace Bundler

/-! ## Accesses and their objects -/

namespace Expr

variable {e : Expr Label} {label : Label} {root : String} {keys : List ChainKey}

theorem chain?_name (chain : e.chain? = some (.ident label root, [])) : e = .ident label root := by
  cases e with
  | member tag object key =>
      simp only [chain?, Option.bind_eq_bind, Option.bind_eq_some_iff] at chain
      obtain ⟨_, -, same⟩ := chain
      simp at same
  | index tag object key =>
      simp only [chain?, Option.bind_eq_bind, Option.bind_eq_some_iff] at chain
      obtain ⟨_, -, _, -, same⟩ := chain
      simp at same
  | ident => cases chain; rfl
  | literal | call | assign => cases chain

/-- The object of a chain is a chain with one key less, and all that an access may have beside it is a
    literal in brackets. -/
theorem chain?_access (chain : e.chain? = some (.ident label root, keys)) (nonempty : keys ≠ []) :
    e.isAccess = true ∧ ∃ object rest shorter key, e.children = object :: rest ∧
      object.chain? = some (.ident label root, shorter) ∧ keys = shorter ++ [key] ∧
      ∀ part ∈ rest, ∃ label value, part = .literal label value := by
  cases e with
  | member tag object key =>
      simp only [chain?, Option.bind_eq_bind, Option.bind_eq_some_iff] at chain
      obtain ⟨⟨_, shorter⟩, chain, same⟩ := chain
      cases same
      exact ⟨rfl, object, [], shorter, _, rfl, chain, rfl, by simp⟩
  | index tag object key =>
      simp only [chain?, Option.bind_eq_bind, Option.bind_eq_some_iff] at chain
      obtain ⟨chainKey, bracket, ⟨_, shorter⟩, chain, same⟩ := chain
      cases same
      refine ⟨rfl, object, [key], shorter, chainKey, rfl, chain, rfl, fun part member => ?_⟩
      obtain rfl := List.mem_singleton.mp member
      unfold bracketKey? at bracket
      split at bracket
      next => exact ⟨_, _, rfl⟩
      next => cases bracket
  | ident => cases chain; exact absurd rfl nonempty
  | literal | call | assign => cases chain

end Expr

namespace Graph

variable {graph other : Graph} {owner : ModuleId} {options : Options}

/-- An access is resolved as a whole, and its parts after it if they are not settled with it. -/
theorem resolveExpr_access {access : Expr Label} (accesses : access.isAccess = true) :
    resolveExpr options owner access = once access.id (do
      unless ← resolveAccess options owner access do
        resolveExprs options owner access.children) := by
  cases access with
  | member tag object key =>
      rw [resolveExpr]
      simp only [Expr.children, resolveExprs, bind_pure_unit]
      rfl
  | index tag object key =>
      rw [resolveExpr]
      simp only [Expr.children, resolveExprs, bind_pure_unit]
      rfl
  | ident | literal | call | assign => cases accesses

/-! ## Looking up again -/

theorem globals_globalDeclaration (symbols : Symbols) (name : String) :
    (symbols.globalDeclaration name).2.globals[name]? = some (symbols.globalDeclaration name).1 := by
  rw [Symbols.globalDeclaration]
  split
  next found => exact found
  next => exact Std.TreeMap.getElem?_insert_self

theorem denoted_of_kind_eq {symbols other : Symbols} {id : DeclId}
    (same : (other.declarationAt id).kind = (symbols.declarationAt id).kind) :
    other.denoted id = symbols.denoted id := by
  rw [Symbols.denoted, Symbols.denoted, same]

/-- A name that has been looked up in a connected program denotes the same for good. -/
theorem Navigable.lookup_again (navigable : graph.Navigable) {name : String} {start : DeclId}
    {middle : Graph} (looked : (lookup owner name).outcome graph = (.ok start, middle))
    (develops : Develops middle other) : (lookup owner name).outcome other = (.ok start, other) := by
  have outermost : (graph.scopes.scopeAt owner.scope).parent = none := navigable.sound.scopes.parent
  rw [lookup, Step.outcome_modifyGet] at looked ⊢
  cases bound : graph.scopes.lookup? name graph.scopes.all.size owner.scope with
  | some declaration =>
      have belongs := navigable.sound.scopes.binding ((lookup?_eq outermost name _).symm.trans bound)
      simp only [Scopes.find, bound] at looked
      cases looked
      have found : other.scopes.find other.symbols owner.scope name = (declaration, other.symbols) := by
        simp only [Scopes.find, develops.scopes, bound]
      rw [found]
      exact congrArg (fun id => (Except.ok id, other))
        (denoted_of_kind_eq (develops.kind_eq navigable.connected belongs.inside))
  | none =>
      obtain ⟨first, there⟩ := develops_globalDeclaration navigable.sound name
      have listed := globals_globalDeclaration graph.symbols name
      simp only [Scopes.find, bound] at looked
      cases looked
      have found : other.scopes.find other.symbols owner.scope name =
          ((graph.symbols.globalDeclaration name).1, other.symbols) := by
        simp only [Scopes.find, develops.scopes, bound]
        rw [Symbols.globalDeclaration, develops.remembers.globals listed]
      rw [found]
      exact congrArg (fun id => (Except.ok id, other))
        (denoted_of_kind_eq (develops.kind_eq (first.connected navigable.connected) there.1))

theorem lookup_of_symbols_eq {name : String} {start : DeclId} {symbols : Symbols}
    (looked : (lookup owner name).outcome (graph.withSymbols symbols) =
      (.ok start, graph.withSymbols symbols))
    (scopes : other.scopes = graph.scopes) (same : other.symbols = symbols) :
    (lookup owner name).outcome other = (.ok start, other) := by
  subst same
  rw [lookup, Step.outcome_modifyGet, Prod.mk.injEq] at looked ⊢
  obtain ⟨start', unchanged⟩ := looked
  have symbols : (graph.scopes.find other.symbols owner.scope name).2 = other.symbols :=
    congrArg Graph.symbols unchanged
  have found : other.scopes.find other.symbols owner.scope name =
      graph.scopes.find other.symbols owner.scope name := by rw [scopes]
  rw [found]
  exact ⟨start', congrArg other.withSymbols symbols⟩

/-! ## Ways without a missing key -/

/-- No key is missing on the way, which may end before the keys are used up. -/
inductive Passable (symbols : Symbols) : DeclId → List ChainKey → Prop where
  | arrived {id} : Passable symbols id []
  | beyond {id key keys} : id.index < symbols.declarations.size →
    (symbols.declarationAt id).namespace? = none → Passable symbols id (key :: keys)
  | hop {id next exporter key keys} :
    (symbols.declarationAt id).namespace? = some exporter →
    symbols.Answered exporter key.name (some next) → Passable symbols next keys →
    Passable symbols id (key :: keys)

namespace Passable

variable {symbols : Symbols} {id : DeclId}

theorem take {keys rest : List ChainKey} (passable : Passable symbols id (keys ++ rest)) :
    Passable symbols id keys := by
  induction keys generalizing id with
  | nil => exact .arrived
  | cons key keys ih =>
      cases passable with
      | beyond inside none => exact .beyond inside none
      | hop named answered onward => exact .hop named answered (ih onward)

end Passable

theorem lt_of_namespace? {symbols : Symbols} {id : DeclId} {exporter : Provider}
    (named : (symbols.declarationAt id).namespace? = some exporter) :
    id.index < symbols.declarations.size := by
  by_contra outside
  rw [Symbols.declarationAt_of_le (Nat.not_lt.mp outside)] at named
  cases named

theorem Develops.namespace? (develops : Develops graph other) (connected : graph.Connected) {id : DeclId}
    (inside : graph.HasDeclaration id) : (other.symbols.declarationAt id).namespace? =
      (graph.symbols.declarationAt id).namespace? := by
  rw [Declaration.namespace?, Declaration.namespace?, develops.kind_eq connected inside]

/-- A way stays as it is when more is found out. -/
theorem Navigable.passable (navigable : graph.Navigable) (develops : Develops graph other) {id : DeclId}
    {keys : List ChainKey} (passable : Passable graph.symbols id keys) :
    Passable other.symbols id keys := by
  induction passable with
  | arrived => exact .arrived
  | beyond inside none =>
      exact .beyond (develops.extension.hasDeclaration inside)
        ((develops.namespace? navigable.connected inside).trans none)
  | hop named answered _ ih =>
      exact .hop ((develops.namespace? navigable.connected (lt_of_namespace? named)).trans named)
        (develops.answered navigable.sound navigable.connected answered) ih

/-- A way that has been gone can be gone again. -/
theorem Navigable.passable_of_traced {symbols after : Symbols} {id last : DeclId}
    {keys : List ChainKey} (traced : symbols.Traced id keys after last)
    (navigable : (graph.withSymbols symbols).Navigable)
    (denotable : (graph.withSymbols symbols).Denotable owner id) :
    Develops (graph.withSymbols symbols) (graph.withSymbols after) ∧
      (graph.withSymbols after).Denotable owner last ∧
      ∀ rest, Passable after last rest → Passable after id (keys ++ rest) := by
  induction traced with
  | here => exact ⟨Develops.refl _, denotable, fun _ passable => passable⟩
  | @hop symbols middle after id next last exporter key keys named outcome _ ih =>
      obtain ⟨known, sees⟩ := navigable.sound.namespace? denotable.1 named
      obtain ⟨first, visible⟩ := develops_resolveExport? navigable.sound known key.name
      have outcome' : (Symbols.resolveExport? exporter key.name).outcome
        (graph.withSymbols symbols).symbols = (.ok (some next), middle) := outcome
      have answered := navigable.sound.answered navigable.connected known (congrArg Prod.fst outcome')
      rw [outcome'] at first visible answered
      have navigable' : (graph.withSymbols middle).Navigable := navigable.develops first
      obtain ⟨seen, final⟩ := visible next rfl owner sees
      obtain ⟨later, arrived, onward⟩ := ih navigable' ⟨seen, fun _ => final⟩
      have both : Develops (graph.withSymbols symbols) (graph.withSymbols after) := first.trans later
      refine ⟨both, arrived, fun rest passable => ?_⟩
      refine .hop ((both.namespace? navigable.connected (lt_of_namespace? named)).trans named) ?_
        (onward rest passable)
      exact later.answered navigable'.sound navigable'.connected answered

/-- Where no key is missing, the way goes no other way, and none is missing when it stops. -/
theorem Passable.stops {symbols after : Symbols} {id last : DeclId} {keys rest : List ChainKey}
    (passable : Passable symbols id (keys ++ rest)) (traced : symbols.Traced id keys after last)
    {destination : Destination} (stops : after.Stops last rest destination)
    (exporter : Provider) (key : ChainKey) : destination ≠ .missing exporter key := by
  induction traced with
  | here =>
      rintro rfl
      cases stops with
      | missing named missed =>
          cases passable with
          | beyond _ none => cases none.symm.trans named
          | hop named' answered _ =>
              cases named'.symm.trans named
              cases answered.symm.trans missed
  | hop named outcome _ ih =>
      cases passable with
      | beyond _ none => cases none.symm.trans named
      | hop named' answered onward =>
          cases named'.symm.trans named
          cases answered.symm.trans outcome
          exact ih onward stops

end Graph

end Bundler
