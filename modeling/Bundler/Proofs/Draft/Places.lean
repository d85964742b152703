import Mathlib.Data.List.Forall2
import Bundler.Expr.Chain
import Bundler.Proofs.Draft.Layout
import Bundler.Proofs.Expr.Printing
import Bundler.Proofs.Output.Statements
import Bundler.Proofs.Text.Pieces

/-! # Exact places

Every node of a draft is placed where its text stands in the source of its module.  The parts that a node
is written from have places of their own, inside of its place and one behind the other: its children, the
key that it reads behind a dot, and the keyword that makes it an export.
-/

namespace Bundler

/-! ## What a node is written from -/

/-- An expression with its place. -/
def Expr.piece (e : Expr Label) : Piece := ⟨e.range, e.print⟩

namespace Fragment

/-- A fragment as source text. -/
def print : Fragment → String
  | .statement body => body.print
  | .expr body => body.print

/-- The keyword that makes a declaration an export. -/
def keyword? : Fragment → Option Piece
  | .statement body => body.keywordRange?.map fun range => ⟨range, Statement.exportKeyword⟩
  | .expr _ => none

/-- The key that is read behind a dot. -/
def property? : Fragment → Option Piece
  | .expr (.member label _ key) => some ⟨(Expr.dotKey label key).range, key⟩
  | _ => none

/-- All parts that have a place, in the order of the source. -/
def pieces (fragment : Fragment) : List Piece :=
  fragment.keyword?.toList ++ fragment.children.map Expr.piece ++ fragment.property?.toList

/-- The fragment stands at its place in the source, and its parts stand at theirs, one behind the other and
    within the fragment. -/
structure Exact (source : String) (fragment : Fragment) : Prop where
  text : fragment.label.range.Holds source fragment.print
  parts : ∀ piece ∈ fragment.pieces, piece.range.Holds source piece.text
  inside : ∀ piece ∈ fragment.pieces,
    fragment.label.range.start ≤ piece.range.start ∧ piece.range.stop ≤ fragment.label.range.stop
  sorted : fragment.pieces.Pairwise fun first second => first.range.Before second.range

namespace Exact

variable {source : String} {fragment : Fragment}

theorem append (exact : Exact source fragment) (more : String) : Exact (source ++ more) fragment :=
  ⟨exact.text.append more, fun piece member => (exact.parts piece member).append more, exact.inside,
    exact.sorted⟩

theorem of_tiled {start : Nat} (spells : Spells source start fragment.print)
    (range : fragment.label.range = ⟨start, start + fragment.print.utf8ByteSize⟩)
    (tiled : Tiled start fragment.print fragment.pieces) : Exact source fragment where
  text := by
    rw [range]
    exact ⟨spells, rfl⟩
  parts := tiled.holds spells
  inside piece member := by
    rw [range]
    exact tiled.inside piece member
  sorted := tiled.sorted

end Exact

end Fragment

/-! ## Expressions -/

namespace Expr

variable {α : Type}

theorem tiled_piece (e : Expr α) (start next : Nat) :
    Tiled start e.print [(e.place start next).piece] := by
  rw [piece, print_place]
  exact .single (Graph.range_place e start next)

/-- An operand stands in its parentheses, if it needs them. -/
theorem tiled_operand (e : Expr α) (start next : Nat) :
    Tiled start (enclose e.isAssign e.print) [(e.place (start + e.indent) next).piece] := by
  have tiled := e.tiled_piece (start + e.indent) next
  rw [indent] at tiled ⊢
  cases assign : e.isAssign with
  | false =>
      rw [assign] at tiled
      exact tiled
  | true =>
      rw [assign] at tiled
      exact (Tiled.behind "(" tiled).before ")"

theorem tiled_placeAll (es : List (Expr α)) (start next : Nat) :
    Tiled start (printAll es) ((placeAll start next es).map piece) := by
  induction es generalizing start next with
  | nil => exact .rest
  | cons e rest ih =>
      have first := e.tiled_piece start next
      cases rest with
      | nil => exact first
      | cons second rest =>
          have later := ih (start + e.width + 2) (next + e.size)
          rw [printAll]
          refine (first.before ", ").append later ?_
          rw [String.utf8ByteSize_append, ← Nat.add_assoc]
          rfl

/-- A placed expression is written from its pieces. -/
theorem tiled_place (e : Expr α) (start next : Nat) :
    Tiled start e.print (Fragment.expr (e.place start next)).pieces := by
  cases e with
  | ident | literal => exact .rest
  | member tag object key =>
      have property : Tiled (start + (enclose object.isAssign object.print ++ ".").utf8ByteSize) key
          [⟨(dotKey (place start next (.member tag object key)).tag key).range, key⟩] := by
        refine .single ?_
        simp only [place, Expr.tag, dotKey, width, print, String.utf8ByteSize_append, Range.mk.injEq]
        omega
      exact ((object.tiled_operand start next).before ".").append property rfl
  | index tag object key =>
      have inner := key.tiled_piece (start + object.width + 2 * object.indent + 1) (next + object.size)
      exact (((object.tiled_operand start next).before "[").append inner
        (Graph.offset_operand object start rfl)).before "]"
  | call tag callee arguments =>
      have inner := tiled_placeAll arguments (start + callee.width + 2 * callee.indent + 1)
        (next + callee.size)
      have tiled := (((callee.tiled_operand start next).before "(").append inner
        (Graph.offset_operand callee start rfl)).before ")"
      simpa [Fragment.pieces, Fragment.keyword?, Fragment.property?, Fragment.children, place, children,
        print] using tiled
  | assign tag target value =>
      have first := (target.tiled_piece start next).before " = "
      refine first.append (value.tiled_piece (start + target.width + 3) (next + target.size)) ?_
      rw [String.utf8ByteSize_append, ← Nat.add_assoc]
      rfl

theorem mem_placeAll {c : Expr Label} {es : List (Expr α)} {start next : Nat}
    (among : c ∈ placeAll start next es) : ∃ e ∈ es, ∃ start next, c = e.place start next := by
  induction es generalizing start next with
  | nil => cases among
  | cons e rest ih =>
      rcases List.mem_cons.mp among with rfl | later
      · exact ⟨e, List.mem_cons_self, start, next, rfl⟩
      · obtain ⟨other, member, placed⟩ := ih later
        exact ⟨other, List.mem_cons_of_mem _ member, placed⟩

theorem child_place {e : Expr α} {start next : Nat} {c : Expr Label}
    (child : c ∈ (e.place start next).children) :
    ∃ (d : Expr α) (start next : Nat), c = d.place start next := by
  cases e with
  | ident | literal => cases child
  | member tag object key => exact ⟨object, _, _, List.mem_singleton.mp child⟩
  | index tag object key =>
      rcases List.mem_pair.mp child with rfl | rfl
      · exact ⟨object, _, _, rfl⟩
      · exact ⟨key, _, _, rfl⟩
  | call tag callee arguments =>
      rcases List.mem_cons.mp child with rfl | later
      · exact ⟨callee, _, _, rfl⟩
      · obtain ⟨d, -, placed⟩ := mem_placeAll later
        exact ⟨d, placed⟩
  | assign tag target value =>
      rcases List.mem_pair.mp child with rfl | rfl
      · exact ⟨target, _, _, rfl⟩
      · exact ⟨value, _, _, rfl⟩

/-- The expression is placed where its text stands in the source. -/
def PlacedIn (source : String) (p : Expr Label) : Prop :=
  ∃ (e : Expr Unit) (start next : Nat), p = e.place start next ∧ Spells source start e.print

theorem PlacedIn.exact {source : String} {p : Expr Label} (placed : p.PlacedIn source) :
    (Fragment.expr p).Exact source := by
  obtain ⟨e, start, next, rfl, spells⟩ := placed
  have print : (Fragment.expr (e.place start next)).print = e.print := print_place e start next
  refine .of_tiled (print ▸ spells) ?_ ?_
  · rw [print]
    exact Graph.range_place e start next
  · rw [print]
    exact e.tiled_place start next

/-- Below an expression at its place all expressions are at theirs. -/
theorem PlacedIn.child {source : String} {p c : Expr Label} (placed : p.PlacedIn source)
    (child : c ∈ p.children) : c.PlacedIn source := by
  have exact := placed.exact
  obtain ⟨e, start, next, rfl, -⟩ := placed
  obtain ⟨d, start', next', rfl⟩ := child_place child
  have held := exact.parts (d.place start' next').piece
    (by simp [Fragment.pieces, Fragment.children, List.mem_map_of_mem child])
  refine ⟨d, start', next', rfl, ?_⟩
  have spells := held.1
  rwa [piece, Graph.range_place, print_place] at spells

end Expr

/-! ## Statements -/

namespace Statement

theorem print_place (statement : Statement Unit) (start next : Nat) :
    (statement.place start next).print = statement.print := by
  cases statement with
  | expression tag body => simp only [place, print, Expr.print_place]
  | declare tag exported mode nameTag name init =>
      cases init with
      | none => rfl
      | some init => simp only [place, print, printDeclaration, Option.map_some, printInit, Expr.print_place]
  | importFrom | exportList | exportFrom => rfl

/-- The name and the value of a declaration. -/
theorem tiled_declaration (mode : Mode) (name : String) (init : Option (Expr Unit)) (start next : Nat) :
    Tiled start (printDeclaration mode name init)
      (⟨⟨start + (opening mode).utf8ByteSize, start + (opening mode).utf8ByteSize + name.utf8ByteSize⟩,
          name⟩ ::
        (init.map fun init => init.place
          (start + (opening mode).utf8ByteSize + name.utf8ByteSize + 3) next).toList.map Expr.piece) := by
  have named : Tiled start (opening mode ++ name)
      [⟨⟨start + (opening mode).utf8ByteSize,
        start + (opening mode).utf8ByteSize + name.utf8ByteSize⟩, name⟩] :=
    .behind (opening mode) (.single rfl)
  have follows : start + (opening mode).utf8ByteSize + name.utf8ByteSize =
      start + (opening mode ++ name).utf8ByteSize := by
    rw [String.utf8ByteSize_append, Nat.add_assoc]
  cases init with
  | none => exact (named.append .rest follows).before ";"
  | some init =>
      exact (named.append (.behind " = " (init.tiled_piece _ next)) follows).before ";"

/-- A placed statement is written from its pieces. -/
theorem tiled_place (statement : Statement Unit) (start next : Nat) :
    Tiled start statement.print (Fragment.statement (statement.place start next)).pieces := by
  cases statement with
  | expression tag body => exact (body.tiled_piece start next).before ";"
  | declare tag exported mode nameTag name init =>
      cases exported with
      | false =>
          have declared := tiled_declaration mode name init start (next + 1)
          simpa [Fragment.pieces, Fragment.keyword?, Fragment.property?, Fragment.children, place, children,
            keywordRange?, print, Expr.piece, Expr.range, Expr.tag, Expr.print] using declared
      | true =>
          have keyword : Tiled start exportKeyword
              [⟨⟨start, start + exportKeyword.utf8ByteSize⟩, exportKeyword⟩] := .single rfl
          have declared := keyword.append
            (tiled_declaration mode name init (start + exportKeyword.utf8ByteSize) (next + 1)) rfl
          simpa [Fragment.pieces, Fragment.keyword?, Fragment.property?, Fragment.children, place, children,
            keywordRange?, print, Expr.piece, Expr.range, Expr.tag, Expr.print] using declared
  | importFrom | exportList | exportFrom => exact .rest

variable {source : String} {start : Nat}

theorem exact_place {statement : Statement Unit} (spells : Spells source start statement.print)
    (next : Nat) : (Fragment.statement (statement.place start next)).Exact source := by
  have print : (Fragment.statement (statement.place start next)).print = statement.print :=
    statement.print_place start next
  refine .of_tiled (print ▸ spells) ?_ ?_
  · rw [print]
    exact statement.range_place start next
  · rw [print]
    exact statement.tiled_place start next

theorem child_place {statement : Statement Unit} {next : Nat} {c : Expr Label}
    (child : c ∈ (statement.place start next).children) :
    ∃ (d : Expr Unit) (start next : Nat), c = d.place start next := by
  cases statement with
  | expression tag body => exact ⟨body, _, _, List.mem_singleton.mp child⟩
  | declare tag exported mode nameTag name init =>
      rcases List.mem_cons.mp child with rfl | later
      · exact ⟨.ident () name, _, next, rfl⟩
      · cases init with
        | none => cases later
        | some init => exact ⟨init, _, _, List.mem_singleton.mp later⟩
  | importFrom | exportList | exportFrom => cases child

/-- All expressions of a statement at its place are at theirs. -/
theorem parts_placedIn {statement : Statement Unit} (spells : Spells source start statement.print)
    (next : Nat) : ∀ p ∈ Expr.partsAll (statement.place start next).children, p.PlacedIn source := by
  intro p part
  obtain ⟨c, child, below⟩ := Expr.mem_partsAll.mp part
  refine Expr.forall_parts (fun p placed c child => placed.child child) ?_ p below
  have held := (exact_place spells next).parts c.piece
    (by simp [Fragment.pieces, Fragment.children, List.mem_map_of_mem child])
  obtain ⟨d, start', next', rfl⟩ := child_place child
  refine ⟨d, start', next', rfl, ?_⟩
  have spells := held.1
  rwa [Expr.piece, Graph.range_place, Expr.print_place] at spells

end Statement

/-! ## Drafts -/

namespace Draft

variable {draft : Draft}

/-- All nodes stand at their places in the sources of their modules. -/
def Places (draft : Draft) : Prop :=
  ∀ node ∈ draft.nodes, node.fragment.Exact (draft.symbols.moduleAt node.owner).source

theorem Places.sameText {after : Draft} (same : SameText draft after) (places : draft.Places) :
    after.Places := by
  intro node member
  rw [same.source]
  exact places node (same.nodes ▸ member)

theorem Places.addModule (places : draft.Places) (name : String) : (draft.addModule name).2.Places := by
  intro node member
  have entry : (draft.addModule name).2.symbols.moduleAt node.owner = _ :=
    Symbols.moduleAt_addModule name node.owner
  rw [entry]
  split
  next new =>
    -- Nothing was written to this module, whose source is empty before and after.
    have exact := places node member
    rw [Symbols.moduleAt_of_le (new ▸ Nat.le_refl _)] at exact
    exact exact
  next => exact places node member

theorem Places.addStatement (places : draft.Places) {owner : ModuleId}
    (there : draft.graph.HasProvider (.internal owner)) (statement : Statement Unit) :
    (draft.addStatement owner statement).2.Places := by
  intro node member
  have entry : (draft.addStatement owner statement).2.symbols.moduleAt node.owner = _ :=
    moduleAt_addStatement node.owner
  rw [entry]
  rw [addStatement_snd, ← Array.mem_toList_iff, Array.toList_appendList] at member
  rcases List.mem_append.mp member with old | new
  · have exact := places node (Array.mem_toList_iff.mp old)
    split
    · simpa only [lengthen, String.append_assoc] using exact.append (statement.print ++ "\n")
    · exact exact
  · have spells : Spells ((draft.symbols.moduleAt owner).source ++ statement.print ++ "\n")
        (draft.symbols.moduleAt owner).source.utf8ByteSize statement.print := ⟨_, _, rfl, rfl⟩
    obtain ⟨fragment, among, rfl⟩ := List.mem_map.mp new
    rw [if_pos ⟨rfl, there⟩]
    rcases List.mem_append.mp among with part | last
    · obtain ⟨p, below, rfl⟩ := List.mem_map.mp part
      exact (Statement.parts_placedIn spells _ p below).exact
    · rw [List.mem_singleton.mp last]
      exact Statement.exact_place spells _

theorem Built.places (built : draft.Built) : draft.Places := by
  refine built.text_induction (P := Places) ?_ ?_ ?_ ?_ ?_
  · intro node member
    exact absurd member (Array.not_mem_empty node)
  · exact fun name places => places.addModule name
  · exact fun _ places => places
  · exact fun statement there places => places.addStatement there statement
  · exact fun same places => places.sameText same

end Draft

/-- The source of a module has its statements on a line each. -/
theorem Laid.source_eq {start : Nat} {statements : List (Statement Label)} {source : String}
    (laid : Laid start statements source) :
    source = String.join (statements.map fun statement => statement.print ++ "\n") := by
  induction laid with
  | nil => rfl
  | cons statement next _ ih => rw [List.map_cons, String.join_cons, Statement.print_place, ← ih]

namespace Draft

variable {draft : Draft}

/-- The body of a module lists its statements. -/
theorem Built.body_statements (built : draft.Built) {owner : ModuleId}
    (there : draft.graph.HasProvider (.internal owner)) :
    List.Forall₂ (fun node statement => draft.nodes[node.index]? = some ⟨owner, .statement statement⟩)
      (draft.symbols.moduleAt owner).body.toList (draft.graph.statements owner) := by
  have body := (built.sound.modules there).body
  rw [Graph.statements_eq, symbols_graph]
  have listed : ∀ node ∈ (draft.symbols.moduleAt owner).body.toList,
      draft.graph.StatementSound owner node := fun node member => body node (Array.mem_toList_iff.mp member)
  generalize (draft.symbols.moduleAt owner).body.toList = nodes at listed
  induction nodes with
  | nil => exact .nil
  | cons node rest ih =>
      obtain ⟨statement, found, -⟩ := listed node List.mem_cons_self
      rw [List.filterMap_cons, Graph.nodeAt_of_getElem? found]
      exact .cons found (ih fun other member => listed other (List.mem_cons_of_mem _ member))

/-- Every node stands at its place in the source of its module, with its children before it in the arena and
    at their places inside of its own; and the source of every module has exactly the texts that stand at
    the places of its statements, each on a line of its own. -/
theorem Built.exact_places (built : draft.Built) :
    (∀ (id : NodeId) (node : Node), draft.nodes[id.index]? = some node →
      node.fragment.Exact (draft.symbols.moduleAt node.owner).source ∧
      ∀ c ∈ node.fragment.children,
        c.id.index < id.index ∧ draft.nodes[c.id.index]? = some ⟨node.owner, .expr c⟩) ∧
    ∀ owner, draft.graph.HasProvider (.internal owner) → ∃ lines,
      List.Forall₂ (fun (node : NodeId) line => ∃ statement,
          draft.nodes[node.index]? = some ⟨owner, .statement statement⟩ ∧
          Patch.slice? { source := (draft.symbols.moduleAt owner).source } statement.range = some line)
        (draft.symbols.moduleAt owner).body.toList lines ∧
      (draft.symbols.moduleAt owner).source = String.join (lines.map (· ++ "\n")) := by
  have places := built.places
  constructor
  · intro id node found
    exact ⟨places node (Array.mem_of_getElem? found), built.sound.arena.child found⟩
  · intro owner there
    refine ⟨(draft.graph.statements owner).map (·.print), ?_, ?_⟩
    · refine List.forall₂_map_right_iff.mpr ?_
      refine (built.body_statements there).imp fun node statement found => ?_
      exact ⟨statement, found, (places _ (Array.mem_of_getElem? found)).text.slice?⟩
    · rw [List.map_map]
      exact (built.laidOut owner).2.source_eq

end Draft

/-- One module exports something that another one imports, and declares it once more, which is refused. -/
def Draft.twice : Draft :=
  let draft := ((Draft.addModule {} "lib").2.addModule "main").2
  let value : Expr Unit :=
    .member () (.index () (.assign () (.ident () "é") (.literal () .null)) (.literal () (.string "k"))) "p"
  let draft := ((declare ⟨0⟩ .constant "a" (some value) true).outcome draft).2
  let draft := ((importFrom ⟨1⟩ (.internal ⟨0⟩) "a" "a").outcome draft).2
  ((declare ⟨0⟩ .block "a" none false).outcome draft).2

theorem Draft.built_twice : Draft.twice.Built := by
  refine .declare (.importFrom (.declare (.addModule (.addModule .empty "lib") "main")
    ?_ _ _ _ _) ?_ ?_ _ _) ?_ _ _ _ _
  all_goals decide

/-- The chain that the declared name stands for is read from behind its keywords on, and its last key is
    the last thing in it. -/
theorem Draft.exact_twice : ∃ node : Node, Draft.twice.nodes[6]? = some node ∧
    node.fragment.pieces = [⟨⟨17, 33⟩, "(é = null)[\"k\"]"⟩, ⟨⟨34, 35⟩, "p"⟩] ∧
    node.fragment.Exact "export const a = (é = null)[\"k\"].p;\nlet a;\n" := by
  have found : Draft.twice.nodes[6]? = some Draft.twice.nodes[6] := rfl
  have exact := (built_twice.exact_places.1 ⟨6⟩ _ found).1
  have source : (Draft.twice.symbols.moduleAt Draft.twice.nodes[6].owner).source =
      "export const a = (é = null)[\"k\"].p;\nlet a;\n" := by decide +kernel
  rw [source] at exact
  exact ⟨_, found, by decide +kernel, exact⟩

end Bundler
