import Mathlib.Data.List.Forall2
import Bundler.Expr.Chain
import Bundler.Proofs.Expr.Parts

/-! # Respelled properties

A property whose name is a plain identifier can be read behind a dot or, by a string literal, in brackets.
A tree respells another one if it reads some of its properties in brackets.  It has a literal more for each
of them, and is the same otherwise.
-/

namespace Bundler

variable {α β : Type}

/-- The second tree is the first one with some of the properties in brackets.  The tags of nodes that stand
    for each other are related; those of the added literals have a property. -/
inductive Expr.Respells (same : α → β → Prop) (added : β → Prop) : Expr α → Expr β → Prop where
  | ident {tag tag' name} : same tag tag' → Respells same added (.ident tag name) (.ident tag' name)
  | literal {tag tag' value} : same tag tag' →
    Respells same added (.literal tag value) (.literal tag' value)
  | member {tag tag' object object' key} : same tag tag' → Respells same added object object' →
    Respells same added (.member tag object key) (.member tag' object' key)
  | bracketed {tag tag' keyTag object object' key} : Identifier.isPlain key = true → same tag tag' →
    added keyTag → Respells same added object object' →
    Respells same added (.member tag object key) (.index tag' object' (.literal keyTag (.string key)))
  | index {tag tag' object object' key key'} : same tag tag' → Respells same added object object' →
    Respells same added key key' → Respells same added (.index tag object key) (.index tag' object' key')
  | call {tag tag' callee callee' arguments arguments'} : same tag tag' →
    Respells same added callee callee' → List.Forall₂ (Respells same added) arguments arguments' →
    Respells same added (.call tag callee arguments) (.call tag' callee' arguments')
  | assign {tag tag' target target' value value'} : same tag tag' →
    Respells same added target target' → Respells same added value value' →
    Respells same added (.assign tag target value) (.assign tag' target' value')

/-- The second statement is the first one with some of the properties in brackets. -/
inductive Statement.Respells (same : α → β → Prop) (added : β → Prop) :
    Statement α → Statement β → Prop where
  | expression {tag tag' body body'} : same tag tag' → Expr.Respells same added body body' →
    Respells same added (.expression tag body) (.expression tag' body')
  | declare {tag tag' exported mode nameTag nameTag' name init init'} : same tag tag' →
    same nameTag nameTag' → Option.Rel (Expr.Respells same added) init init' →
    Respells same added (.declare tag exported mode nameTag name init)
      (.declare tag' exported mode nameTag' name init')
  | importFrom {tag tag' source specifier imported binding} : same tag tag' →
    Respells same added (.importFrom tag source specifier imported binding)
      (.importFrom tag' source specifier imported binding)
  | exportList {tag tag' binding exported} : same tag tag' →
    Respells same added (.exportList tag binding exported) (.exportList tag' binding exported)
  | exportFrom {tag tag' source specifier clause} : same tag tag' →
    Respells same added (.exportFrom tag source specifier clause)
      (.exportFrom tag' source specifier clause)

/-- The second fragment is the first one with some of the properties in brackets. -/
inductive Fragment.Respells (same : Label → Label → Prop) (added : Label → Prop) :
    Fragment → Fragment → Prop where
  | statement {body body'} : Statement.Respells same added body body' →
    Respells same added (.statement body) (.statement body')
  | expr {body body'} : Expr.Respells same added body body' →
    Respells same added (.expr body) (.expr body')

/-- Whoever is in one of two related lists is related to somebody in the other one. -/
theorem exists_of_forall₂ {related : α → β → Prop} {items : List α} {items' : List β}
    (all : List.Forall₂ related items items') :
    (∀ item ∈ items, ∃ item' ∈ items', related item item') ∧
      ∀ item' ∈ items', ∃ item ∈ items, related item item' := by
  induction all with
  | nil => exact ⟨nofun, nofun⟩
  | cons here _ ih =>
      constructor
      · intro item among
        rcases List.mem_cons.mp among with rfl | later
        · exact ⟨_, List.mem_cons_self, here⟩
        · obtain ⟨item', member, related⟩ := ih.1 item later
          exact ⟨item', List.mem_cons_of_mem _ member, related⟩
      · intro item' among
        rcases List.mem_cons.mp among with rfl | later
        · exact ⟨_, List.mem_cons_self, here⟩
        · obtain ⟨item, member, related⟩ := ih.2 item' later
          exact ⟨item, List.mem_cons_of_mem _ member, related⟩

namespace Expr

variable {same more : α → β → Prop} {added further : β → Prop} {e : Expr α} {e' : Expr β}

theorem Respells.tag (respells : e.Respells same added e') : same e.tag e'.tag := by
  cases respells <;> assumption

mutual

theorem Respells.mono (tags : ∀ {tag tag'}, same tag tag' → more tag tag')
    (keys : ∀ {tag}, added tag → further tag) :
    ∀ (e : Expr α) {e' : Expr β}, e.Respells same added e' → e.Respells more further e'
  | .ident _ _, _, .ident here => .ident (tags here)
  | .literal _ _, _, .literal here => .literal (tags here)
  | .member _ object _, _, .member here below => .member (tags here) (mono tags keys object below)
  | .member _ object _, _, .bracketed plain here key below =>
    .bracketed plain (tags here) (keys key) (mono tags keys object below)
  | .index _ object key, _, .index here first second =>
    .index (tags here) (mono tags keys object first) (mono tags keys key second)
  | .call _ callee arguments, _, .call here first rest =>
    .call (tags here) (mono tags keys callee first) (monoAll tags keys arguments rest)
  | .assign _ target value, _, .assign here first second =>
    .assign (tags here) (mono tags keys target first) (mono tags keys value second)

theorem Respells.monoAll (tags : ∀ {tag tag'}, same tag tag' → more tag tag')
    (keys : ∀ {tag}, added tag → further tag) : ∀ (es : List (Expr α)) {es' : List (Expr β)},
    List.Forall₂ (Respells same added) es es' → List.Forall₂ (Respells more further) es es'
  | [], _, .nil => .nil
  | e :: rest, _, .cons here later => .cons (mono tags keys e here) (monoAll tags keys rest later)

end

/-! ## Children and parts -/

/-- The expression is a literal that has been added. -/
def Added (added : β → Prop) (e : Expr β) : Prop := ∃ tag value, e = .literal tag value ∧ added tag

theorem Respells.child (respells : e.Respells same added e') :
    ∀ c ∈ e.children, ∃ c' ∈ e'.children, c.Respells same added c' := by
  cases respells with
  | ident | literal => exact nofun
  | member _ below | bracketed _ _ _ below => simp [children, below]
  | index _ first second | assign _ first second => simp [children, first, second]
  | call _ first rest => exact (exists_of_forall₂ (.cons first rest)).1

/-- Below the second expression there are the counterparts of what is below the first one, and literals
    that have been added. -/
theorem Respells.child' (respells : e.Respells same added e') :
    ∀ c' ∈ e'.children, (∃ c ∈ e.children, c.Respells same added c') ∨ c'.Added added := by
  cases respells with
  | ident | literal => exact nofun
  | member _ below => simp [children, below]
  | bracketed _ _ key below => simp [children, below, Added, key]
  | index _ first second | assign _ first second => simp [children, first, second]
  | call _ first rest => exact fun c' child => .inl ((exists_of_forall₂ (.cons first rest)).2 c' child)

theorem Respells.part (respells : e.Respells same added e') :
    ∀ p ∈ e.parts, ∃ p' ∈ e'.parts, p.Respells same added p' := by
  refine forall_parts (fun p => ?_) ⟨e', mem_parts_self e', respells⟩
  rintro ⟨p', part, below⟩ c child
  obtain ⟨c', child', respells⟩ := below.child c child
  exact ⟨c', mem_parts_of_child part child', respells⟩

theorem Respells.part' (respells : e.Respells same added e') :
    ∀ p' ∈ e'.parts, (∃ p ∈ e.parts, p.Respells same added p') ∨ p'.Added added := by
  refine forall_parts (fun p' => ?_) (.inl ⟨e, mem_parts_self e, respells⟩)
  rintro (⟨p, part, below⟩ | ⟨tag, value, rfl, -⟩) c' child'
  · refine (below.child' c' child').imp_left ?_
    rintro ⟨c, child, respells⟩
    exact ⟨c, mem_parts_of_child part child, respells⟩
  · cases child'

end Expr

/-! ## Chains of keys -/

section Chains

variable {same : Label → Label → Prop} {added : Label → Prop} {e e' : Expr Label}

/-- The chains have the same keys, at whatever places, and roots that stand for each other. -/
def SameChain (same : Label → Label → Prop) (added : Label → Prop)
    (chain chain' : Expr Label × List ChainKey) : Prop :=
  chain.1.Respells same added chain'.1 ∧
    List.Forall₂ (fun key key' : ChainKey => key'.name = key.name) chain.2 chain'.2

theorem SameChain.concat {chain chain' : Expr Label × List ChainKey} {key key' : ChainKey}
    (chains : SameChain same added chain chain') (keys : key'.name = key.name) :
    SameChain same added (chain.1, chain.2 ++ [key]) (chain'.1, chain'.2 ++ [key']) :=
  ⟨chains.1, List.rel_append chains.2 (.cons keys .nil)⟩

namespace Expr

theorem Respells.bracketKey? (respells : e.Respells same added e') :
    Option.Rel (fun key key' : ChainKey => key'.name = key.name) e.bracketKey? e'.bracketKey? := by
  cases respells with
  | @literal _ _ value =>
      cases value with
      | string name =>
          rw [Expr.bracketKey?, Expr.bracketKey?]
          split
          · exact .some rfl
          · exact .none
      | number | boolean | null => exact .none
  | ident | member | bracketed | index | call | assign => exact .none

/-- However the properties are spelled, the keys of a chain are the same. -/
theorem Respells.chain? : ∀ (e : Expr Label) {e' : Expr Label}, e.Respells same added e' →
    Option.Rel (SameChain same added) e.chain? e'.chain?
  | .ident _ _, _, respells@(.ident _) => .some ⟨respells, .nil⟩
  | .literal _ _, _, respells@(.literal _) => .some ⟨respells, .nil⟩
  | .call _ _ _, _, respells@(.call _ _ _) => .some ⟨respells, .nil⟩
  | .assign _ _ _, _, respells@(.assign _ _ _) => .some ⟨respells, .nil⟩
  | .member _ object _, _, @Respells.member _ _ _ _ _ _ _ object' _ _ below => by
    have chains := chain? object below
    rw [Expr.chain?, Expr.chain?]
    generalize object.chain? = chain, object'.chain? = chain' at chains
    cases chains with
    | some chains => exact .some (chains.concat rfl)
    | none => exact .none
  | .member _ object _, _, @Respells.bracketed _ _ _ _ _ _ _ _ object' _ plain _ _ below => by
    have chains := chain? object below
    rw [Expr.chain?, Expr.chain?, Expr.bracketKey?, if_pos plain]
    generalize object.chain? = chain, object'.chain? = chain' at chains
    cases chains with
    | some chains => exact .some (chains.concat rfl)
    | none => exact .none
  | .index _ object key, _, @Respells.index _ _ _ _ _ _ _ object' _ key' _ below second => by
    have chains := chain? object below
    have keys := second.bracketKey?
    rw [Expr.chain?, Expr.chain?]
    generalize object.chain? = chain, object'.chain? = chain' at chains
    generalize key.bracketKey? = found, key'.bracketKey? = found' at keys
    cases keys with
    | none => exact .none
    | some same =>
        cases chains with
        | some chains => exact .some (chains.concat same)
        | none => exact .none

end Expr

end Chains

/-! ## Statements -/

namespace Statement

variable {same more : α → β → Prop} {added further : β → Prop} {statement : Statement α}
  {other : Statement β}

theorem Respells.tag (respells : statement.Respells same added other) : same statement.tag other.tag := by
  cases respells <;> assumption

theorem Respells.mono (tags : ∀ {tag tag'}, same tag tag' → more tag tag')
    (keys : ∀ {tag}, added tag → further tag) (respells : statement.Respells same added other) :
    statement.Respells more further other := by
  cases respells with
  | expression here body => exact .expression (tags here) (body.mono tags keys _)
  | declare here name init =>
      refine .declare (tags here) (tags name) ?_
      cases init with
      | some init => exact .some (init.mono tags keys _)
      | none => exact .none
  | importFrom here => exact .importFrom (tags here)
  | exportList here => exact .exportList (tags here)
  | exportFrom here => exact .exportFrom (tags here)

theorem Respells.source? (respells : statement.Respells same added other) :
    other.source? = statement.source? := by
  cases respells <;> rfl

theorem Respells.children (respells : statement.Respells same added other) :
    List.Forall₂ (Expr.Respells same added) statement.children other.children := by
  cases respells with
  | expression _ body => exact .cons body .nil
  | declare _ name init =>
      refine .cons (.ident name) ?_
      cases init with
      | some init => exact .cons init .nil
      | none => exact .nil
  | importFrom | exportList | exportFrom => exact .nil

end Statement

/-! ## Fragments -/

section Statements

variable {same : Label → Label → Prop} {added : Label → Prop} {statement other : Statement Label}

/-- Every fragment of the first statement has a counterpart in the second one. -/
theorem Statement.Respells.fragment (respells : statement.Respells same added other) :
    ∀ f ∈ Fragment.ofStatement statement, ∃ f' ∈ Fragment.ofStatement other, f.Respells same added f' := by
  intro f member
  rcases List.mem_append.mp member with part | last
  · obtain ⟨p, below, rfl⟩ := List.mem_map.mp part
    obtain ⟨c, child, among⟩ := Expr.mem_partsAll.mp below
    obtain ⟨c', child', respells⟩ := (exists_of_forall₂ respells.children).1 c child
    obtain ⟨p', part', respells⟩ := respells.part p among
    exact ⟨_, List.mem_append_left _ (List.mem_map_of_mem (Expr.mem_partsAll.mpr ⟨c', child', part'⟩)),
      .expr respells⟩
  · rw [List.mem_singleton.mp last]
    exact ⟨_, List.mem_append_right _ List.mem_cons_self, .statement respells⟩

/-- Every fragment of the second statement is such a counterpart, or a literal that has been added. -/
theorem Statement.Respells.fragment' (respells : statement.Respells same added other) :
    ∀ f' ∈ Fragment.ofStatement other, (∃ f ∈ Fragment.ofStatement statement, f.Respells same added f') ∨
      ∃ e : Expr Label, e.Added added ∧ f' = .expr e := by
  intro f' member
  rcases List.mem_append.mp member with part | last
  · obtain ⟨p', below, rfl⟩ := List.mem_map.mp part
    obtain ⟨c', child', among⟩ := Expr.mem_partsAll.mp below
    obtain ⟨c, child, respells⟩ := (exists_of_forall₂ respells.children).2 c' child'
    refine (respells.part' p' among).imp ?_ fun added => ⟨p', added, rfl⟩
    rintro ⟨p, part, respells⟩
    exact ⟨_, List.mem_append_left _ (List.mem_map_of_mem (Expr.mem_partsAll.mpr ⟨c, child, part⟩)),
      .expr respells⟩
  · rw [List.mem_singleton.mp last]
    exact .inl ⟨_, List.mem_append_right _ List.mem_cons_self, .statement respells⟩

end Statements

namespace Fragment

variable {same : Label → Label → Prop} {added : Label → Prop} {fragment other : Fragment}

theorem Respells.mono {more : Label → Label → Prop} {further : Label → Prop}
    (tags : ∀ {tag tag'}, same tag tag' → more tag tag') (keys : ∀ {tag}, added tag → further tag)
    (respells : fragment.Respells same added other) : fragment.Respells more further other := by
  cases respells with
  | statement body => exact .statement (body.mono tags keys)
  | expr body => exact .expr (body.mono tags keys _)

theorem Respells.label (respells : fragment.Respells same added other) : same fragment.label other.label := by
  cases respells with
  | statement body => exact body.tag
  | expr body => exact body.tag

theorem Respells.child (respells : fragment.Respells same added other) :
    ∀ c ∈ fragment.children, ∃ c' ∈ other.children, c.Respells same added c' := by
  cases respells with
  | statement body => exact (exists_of_forall₂ body.children).1
  | expr body => exact body.child

theorem Respells.child' (respells : fragment.Respells same added other) :
    ∀ c' ∈ other.children, (∃ c ∈ fragment.children, c.Respells same added c') ∨ c'.Added added := by
  cases respells with
  | statement body => exact fun c' child => .inl ((exists_of_forall₂ body.children).2 c' child)
  | expr body => exact body.child'

end Fragment

end Bundler
