import ScopedLisp.Proofs.FormLayout
import ScopedLisp.Proofs.SourceReading

/-!
# The nodes of a form in source order

A walk over a form meets the form itself, for a call then the group of its
arguments, and then the nodes of its children (`Form.nodes`).  The nodes record
where they stand in the source: a form at one of its own tokens, a group at the
first token of its first argument, or at the closing parenthesis when there is
none.

The tokens of a source stand one behind the other (`Lexed.increasing`), and a
form, its group and its children lie in the tokens in this order
(`Form.LaidOut`).  So the walk never goes back in the source, and it stays at a
place only from a group to its first argument (`nodes_follow_source`).
-/

namespace ScopedLisp

/-! ## Order of places -/

/-- One place comes before another if it is on an earlier line, or further left on the same line. -/
def Position.Before (first second : Position) : Prop :=
  first.line < second.line ∨
    (first.line = second.line ∧ first.column < second.column)

namespace Position

theorem Before.trans {first second third : Position}
    (before : first.Before second) (before' : second.Before third) :
    first.Before third := by
  simp only [Before] at *
  omega

theorem before_next (position : Position) (character : Char) :
    position.Before (position.next character) := by
  rw [next]
  split
  · exact .inl (Nat.lt_succ_self _)
  · exact .inr ⟨rfl, Nat.lt_succ_self _⟩

/-- Behind a text that is not empty is a later place. -/
theorem before_advance (position : Position) {text : List Char}
    (notEmpty : text ≠ []) : position.Before (position.advance text) := by
  induction text generalizing position with
  | nil => contradiction
  | cons character text ih =>
      have step := position.before_next character
      rw [advance_cons]
      cases text with
      | nil => exact step
      | cons => exact step.trans (ih _ (List.cons_ne_nil _ _))

theorem eq_or_before_advance (position : Position) (text : List Char) :
    position.advance text = position ∨
      position.Before (position.advance text) := by
  by_cases isEmpty : text = []
  · subst isEmpty
    exact .inl rfl
  · exact .inr (position.before_advance isEmpty)

end Position

/-- Each token stands behind those in front of it. -/
def Increasing (tokens : List Token) : Prop :=
  tokens.Pairwise fun token later => token.position.Before later.position

/-- A piece of increasing tokens is increasing. -/
theorem Increasing.middle {before part behind : List Token}
    (increasing : Increasing (before ++ (part ++ behind))) : Increasing part :=
  increasing.sublist
    ((List.sublist_append_left part behind).trans
      (List.sublist_append_right before _))

/-- The tokens of a source stand one behind the other, none in front of where it starts. -/
theorem Lexed.increasing {position : Position} {depth : Nat}
    {source : List Char} {tokens : List Token}
    (lexed : Lexed position depth source tokens) :
    Increasing tokens ∧
      ∀ token ∈ tokens, token.position = position ∨
        position.Before token.position := by
  induction lexed with
  | done => exact ⟨.nil, List.forall_mem_nil _⟩
  | @token position depth next gap behind first piece tokens isGap cuts counted
      later ih =>
      rcases ih with ⟨increasing, within⟩
      let place := position.advance gap
      have notEmpty : piece.text ≠ [] :=
        readLexeme_text_ne_nil (readLexeme_of_cutsOff cuts)
      have behindToken : ∀ token ∈ tokens, place.Before token.position := by
        intro token member
        have before := place.before_advance notEmpty
        rcases within token member with same | further
        · rwa [same]
        · exact before.trans further
      refine ⟨List.pairwise_cons.mpr ⟨behindToken, increasing⟩, ?_⟩
      refine List.forall_mem_cons.mpr ⟨position.eq_or_before_advance gap, ?_⟩
      intro token member
      rcases position.eq_or_before_advance gap with same | before
      · exact .inr (same ▸ behindToken token member)
      · exact .inr (before.trans (behindToken token member))

/-! ## Nodes -/

/-- What a walk over a form meets: forms, and the argument groups of calls. -/
inductive Node where
  | form (form : Form)
  | group (name : Identifier) (position : Position) (arguments : List Form)

namespace Node

/-- Where a node stands. -/
def position : Node → Position
  | .form itself => itself.position
  | .group _ position _ => position

/--
The tokens of a node's own form, with the node at one of them.  A group
belongs to its call; it stands where its first argument starts, and at the
closing parenthesis if there is none.
-/
def StandsIn (own : List Token) : Node → Prop
  | .form itself =>
    Form.ofTokens own = .ok itself ∧ itself.position ∈ own.map (·.position)
  | .group name position [] =>
    Form.ofTokens own = .ok (.call name position []) ∧
      ∃ opening head closing, own = [opening, head, closing] ∧
        closing.kind = .closeParen ∧ position = closing.position
  | .group name position (argument :: arguments) =>
    Form.ofTokens own = .ok (.call name position (argument :: arguments)) ∧
      ∃ opening head first part behind,
        own = opening :: head :: (first :: part ++ behind) ∧
          Form.ofTokens (first :: part) = .ok argument ∧
          position = first.position

/-- Whether a node is the first argument of a group. -/
def IsFirstOf (node : Node) : Node → Prop
  | .group _ _ (argument :: _) => node = .form argument
  | .group _ _ [] | .form _ => False

/-- A later node stands further on, or it is the first argument of a group that stands there too. -/
def Precedes (node later : Node) : Prop :=
  node.position.Before later.position ∨
    (node.position = later.position ∧ later.IsFirstOf node)

end Node

namespace Form

/-- The nodes that stand in front of the children of a form. -/
def heading : Form → List Node
  | .call name group arguments =>
    [.form (.call name group arguments), .group name group arguments]
  | form => [.form form]

/-- The nodes of a form in the order of a walk. -/
def nodes : Form → List Node
  | .literal token value => [.form (.literal token value)]
  | .variable name => [.form (.variable name)]
  | .assignment target value =>
    .form (.assignment target value) :: value.nodes
  | .conditional opening test consequent alternate =>
    .form (.conditional opening test consequent alternate) ::
      (test.nodes ++ consequent.nodes ++ alternate.nodes)
  | .lambda opening parameters body =>
    .form (.lambda opening parameters body) :: body.nodes
  | .sequence opening items =>
    .form (.sequence opening items) :: nodesOfAll items
  | .printLine opening value => .form (.printLine opening value) :: value.nodes
  | .operation operator word left right =>
    .form (.operation operator word left right) :: (left.nodes ++ right.nodes)
  | .call name group arguments =>
    .form (.call name group arguments) :: .group name group arguments ::
      nodesOfAll arguments
where
  /-- The nodes of forms in the order of a walk. -/
  nodesOfAll : List Form → List Node
    | [] => []
    | form :: forms => form.nodes ++ nodesOfAll forms

theorem nodesOfAll_eq_flatMap (forms : List Form) :
    nodes.nodesOfAll forms = forms.flatMap nodes := by
  induction forms with
  | nil => rfl
  | cons form forms ih =>
      simp [nodes.nodesOfAll, ih]

/-- A walk over a form meets its own nodes and then those of its children. -/
theorem nodes_eq (form : Form) :
    form.nodes = form.heading ++ form.children.flatMap nodes := by
  cases form <;> simp [nodes, heading, children, nodesOfAll_eq_flatMap]

/-- A form is met before everything inside it. -/
theorem exists_nodes_eq_cons (form : Form) :
    ∃ inner, form.nodes = .form form :: inner := by
  cases form <;> exact ⟨_, rfl⟩

/-- Induction over forms, with a hypothesis for every child. -/
theorem childInduction {motive : Form → Prop}
    (step : ∀ form, (∀ child ∈ form.children, motive child) → motive form)
    (form : Form) : motive form := by
  induction form using Form.inductionOn with
  | literal token value => exact step _ (List.forall_mem_nil _)
  | reference name => exact step _ (List.forall_mem_nil _)
  | sequence opening items ih => exact step _ ih
  | call name group arguments ih => exact step _ ih
  | assignment | conditional | lambda | printLine | operation =>
      exact step _ (by simp_all [children])

end Form

/-! ## Where nodes stand -/

/-- A list of tokens that is read as a form is not empty. -/
theorem Form.exists_cons_of_ofTokens {tokens : List Token} {form : Form}
    (read : Form.ofTokens tokens = .ok form) :
    ∃ first later, tokens = first :: later := by
  cases tokens with
  | nil => contradiction
  | cons first later => exact ⟨first, later, rfl⟩

/-- A node stands at one of the tokens that it stands in. -/
theorem Node.StandsIn.position_mem {node : Node} {own : List Token}
    (stands : node.StandsIn own) : node.position ∈ own.map (·.position) := by
  match node with
  | .form _ => exact stands.2
  | .group _ _ [] =>
      rcases stands with ⟨-, opening, head, closing, rfl, -, place⟩
      simp [Node.position, place]
  | .group _ _ (_ :: _) =>
      rcases stands with ⟨-, opening, head, first, part, behind, rfl, -, place⟩
      simp [Node.position, place]

/-- The nodes in front of the children of a form stand in the form. -/
theorem Form.LaidOut.heading_stands {form : Form} {own front back : List Token}
    {parts : List (List Token)} (laidOut : form.LaidOut own front parts back)
    (read : Form.ofTokens own = .ok form) :
    ∀ node ∈ form.heading, node.StandsIn own := by
  have itself : (Node.form form).StandsIn own := by
    refine ⟨read, ?_⟩
    rw [laidOut.covers, List.map_append]
    exact List.mem_append_left _ laidOut.place
  cases form with
  | call name group arguments =>
      refine List.forall_mem_cons.mpr ⟨itself, List.forall_mem_singleton.mpr ?_⟩
      rcases laidOut.group name group arguments rfl with
        ⟨opening, head, closing, rfl, rfl, closes, place⟩
      have each := laidOut.each
      have covers := laidOut.covers
      cases arguments with
      | nil =>
          cases each
          exact ⟨read, opening, head, closing, covers, closes,
            (Option.some.inj place).symm⟩
      | cons argument arguments =>
          cases each with
          | @cons part _ parts _ readFirst readRest =>
              rcases Form.exists_cons_of_ofTokens readFirst with
                ⟨first, later, rfl⟩
              exact ⟨read, opening, head, first, later,
                parts.flatten ++ [closing], by simpa using covers, readFirst,
                (Option.some.inj place).symm⟩
  | _ => exact List.forall_mem_singleton.mpr itself

/-- Every part of some tokens is a piece of them. -/
theorem ReadEach.exists_part {parts : List (List Token)} {forms : List Form}
    (each : ReadEach parts forms) :
    ∀ form ∈ forms, ∃ before part behind,
      parts.flatten = before ++ (part ++ behind) ∧
        Form.ofTokens part = .ok form := by
  induction each with
  | nil => exact List.forall_mem_nil _
  | @cons part form parts forms read each ih =>
      refine List.forall_mem_cons.mpr ⟨⟨[], part, parts.flatten, rfl, read⟩, ?_⟩
      intro later member
      rcases ih later member with ⟨before, inner, behind, covers, readLater⟩
      exact ⟨part ++ before, inner, behind, by simp [covers], readLater⟩

/-- Every node of a form that was read stands in tokens of its own. -/
theorem Form.nodes_stand {form : Form} {tokens : List Token}
    (read : Form.ofTokens tokens = .ok form) :
    ∀ node ∈ form.nodes, ∃ before own behind,
      tokens = before ++ (own ++ behind) ∧ node.StandsIn own := by
  induction form using Form.childInduction generalizing tokens with
  | step form ih =>
      rcases Form.exists_laidOut read with ⟨front, parts, back, laidOut⟩
      intro node member
      rw [form.nodes_eq, List.mem_append, List.mem_flatMap] at member
      rcases member with inHeading | ⟨child, isChild, inChild⟩
      · exact ⟨[], tokens, [], by simp,
          laidOut.heading_stands read node inHeading⟩
      · rcases laidOut.each.exists_part child isChild with
          ⟨around, part, rest, covers, readChild⟩
        rcases ih child isChild readChild node inChild with
          ⟨before, own, behind, rfl, stands⟩
        refine ⟨front ++ (around ++ before), own, behind ++ (rest ++ back), ?_,
          stands⟩
        rw [laidOut.covers, covers]
        simp

theorem Form.node_position_mem {form : Form} {tokens : List Token}
    (read : Form.ofTokens tokens = .ok form) {node : Node}
    (member : node ∈ form.nodes) :
    node.position ∈ tokens.map (·.position) := by
  rcases Form.nodes_stand read node member with
    ⟨before, own, behind, rfl, stands⟩
  simp only [List.map_append]
  exact List.mem_append_right _ (List.mem_append_left _ stands.position_mem)

/-! ## The order of nodes -/

/-- What stands in a front part of increasing tokens comes before what stands behind it. -/
theorem Increasing.before {front back : List Token} {first second : Position}
    (increasing : Increasing (front ++ back))
    (inFront : first ∈ front.map (·.position))
    (inBack : second ∈ back.map (·.position)) : first.Before second := by
  rcases List.mem_map.mp inFront with ⟨token, member, rfl⟩
  rcases List.mem_map.mp inBack with ⟨later, memberLater, rfl⟩
  exact (List.pairwise_append.mp increasing).2.2 token member later memberLater

theorem Increasing.eq_or_before {first : Token} {later : List Token}
    {place : Position} (increasing : Increasing (first :: later))
    (member : place ∈ (first :: later).map (·.position)) :
    place = first.position ∨ first.position.Before place := by
  rcases List.mem_map.mp member with ⟨token, isToken, rfl⟩
  rcases List.mem_cons.mp isToken with rfl | isLater
  · exact .inl rfl
  · exact .inr ((List.pairwise_cons.mp increasing).1 token isLater)

/-- Of the nodes of a form at most the form itself stands at its first token. -/
theorem Form.node_at_first {form : Form} {first : Token} {later : List Token}
    (read : Form.ofTokens (first :: later) = .ok form)
    (increasing : Increasing (first :: later))
    (inside : form.nodes.Pairwise Node.Precedes) {node : Node}
    (member : node ∈ form.nodes) :
    first.position.Before node.position ∨
      (first.position = node.position ∧ node = .form form) := by
  rcases form.exists_nodes_eq_cons with ⟨inner, nodes⟩
  have isNode : Node.form form ∈ form.nodes := by
    rw [nodes]
    exact List.mem_cons_self
  have itself : form.position = first.position ∨
      first.position.Before form.position :=
    increasing.eq_or_before (Form.node_position_mem read isNode)
  rw [nodes] at inside member
  rcases List.mem_cons.mp member with rfl | isInner
  · rcases itself with same | before
    · exact .inr ⟨same.symm, rfl⟩
    · exact .inl before
  · rcases (List.pairwise_cons.mp inside).1 node isInner with
      further | ⟨-, notFirst⟩
    · rcases itself with same | before
      · exact .inl (same ▸ further)
      · exact .inl (before.trans further)
    · contradiction

/-- The nodes of children stand in the parts of the children. -/
theorem ReadEach.node_position_mem {parts : List (List Token)}
    {forms : List Form} (each : ReadEach parts forms) {node : Node}
    (member : node ∈ forms.flatMap Form.nodes) :
    node.position ∈ parts.flatten.map (·.position) := by
  rcases List.mem_flatMap.mp member with ⟨form, isForm, inForm⟩
  rcases each.exists_part form isForm with
    ⟨before, part, behind, covers, read⟩
  rw [covers, List.map_append, List.map_append]
  exact List.mem_append_right _
    (List.mem_append_left _ (Form.node_position_mem read inForm))

/-- Forms that are read one after the other have their nodes one after the other. -/
theorem ReadEach.precedes {parts : List (List Token)} {forms : List Form}
    (each : ReadEach parts forms) (increasing : Increasing parts.flatten)
    (inside : ∀ form ∈ forms, form.nodes.Pairwise Node.Precedes) :
    (forms.flatMap Form.nodes).Pairwise Node.Precedes := by
  induction each with
  | nil => exact .nil
  | @cons part form parts forms read each ih =>
      rcases List.forall_mem_cons.mp inside with ⟨insideFirst, insideRest⟩
      have inRest := (List.pairwise_append.mp increasing).2.1
      refine List.pairwise_append.mpr
        ⟨insideFirst, ih inRest insideRest, ?_⟩
      intro node inForm later inForms
      exact .inl (increasing.before (Form.node_position_mem read inForm)
        (ReadEach.node_position_mem each inForms))

namespace Form.LaidOut

variable {own front back : List Token} {parts : List (List Token)}

/-- A form comes before everything that stands behind its head. -/
theorem itself_before {form : Form} (laidOut : form.LaidOut own front parts back)
    (increasing : Increasing own) {place : Position}
    (behind : place ∈ (parts.flatten ++ back).map (·.position)) :
    form.position.Before place := by
  rw [laidOut.covers] at increasing
  exact increasing.before laidOut.place behind

/-- The group of a call stands at the first token behind the name, before every other. -/
theorem group_precedes {name : Identifier} {group : Position}
    {arguments : List Form}
    (laidOut : (Form.call name group arguments).LaidOut own front parts back)
    (increasing : Increasing own)
    (inside : ∀ argument ∈ arguments, argument.nodes.Pairwise Node.Precedes)
    {node : Node} (member : node ∈ arguments.flatMap Form.nodes) :
    (Node.group name group arguments).Precedes node := by
  rcases laidOut.group name group arguments rfl with
    ⟨opening, head, closing, -, -, -, place⟩
  have each : ReadEach parts arguments := laidOut.each
  rw [laidOut.covers] at increasing
  have inParts : Increasing parts.flatten := increasing.middle
  cases each with
  | nil => contradiction
  | @cons part argument parts arguments readFirst each =>
      rcases Form.exists_cons_of_ofTokens readFirst with ⟨first, later, rfl⟩
      obtain rfl : first.position = group := Option.some.inj place
      rw [List.flatten_cons] at inParts
      rw [List.flatMap_cons, List.mem_append] at member
      rcases member with inFirst | inRest
      · have itself := List.pairwise_append.mp inParts
        exact Form.node_at_first readFirst itself.1
          (inside argument List.mem_cons_self) inFirst
      · exact .inl (inParts.before (List.mem_map_of_mem List.mem_cons_self)
          (ReadEach.node_position_mem each inRest))

/-- The nodes in front of the children of a form come before those of the children. -/
theorem heading_precedes {form : Form}
    (laidOut : form.LaidOut own front parts back) (increasing : Increasing own)
    (inside : ∀ child ∈ form.children, child.nodes.Pairwise Node.Precedes) :
    form.heading.Pairwise Node.Precedes ∧
      ∀ node ∈ form.heading, ∀ later ∈ form.children.flatMap Form.nodes,
        node.Precedes later := by
  have itself : ∀ later ∈ form.children.flatMap Form.nodes,
      (Node.form form).Precedes later := by
    intro later member
    refine .inl (laidOut.itself_before increasing ?_)
    rw [List.map_append]
    exact List.mem_append_left _
      (ReadEach.node_position_mem laidOut.each member)
  cases form with
  | call name group arguments =>
      rcases laidOut.group name group arguments rfl with
        ⟨opening, head, closing, -, rfl, -, place⟩
      have atGroup : group ∈ (parts.flatten ++ [closing]).map (·.position) := by
        rw [← List.head?_map] at place
        exact List.mem_of_mem_head? place
      refine ⟨List.pairwise_pair.mpr
        (.inl (laidOut.itself_before increasing atGroup)), ?_⟩
      exact List.forall_mem_cons.mpr ⟨itself, List.forall_mem_singleton.mpr
        fun later => laidOut.group_precedes increasing inside⟩
  | _ => exact ⟨List.pairwise_singleton _ _, List.forall_mem_singleton.mpr itself⟩

end Form.LaidOut

/-- A walk over a form that was read goes through its tokens from left to right. -/
theorem Form.nodes_precede {form : Form} {tokens : List Token}
    (read : Form.ofTokens tokens = .ok form) (increasing : Increasing tokens) :
    form.nodes.Pairwise Node.Precedes := by
  induction form using Form.childInduction generalizing tokens with
  | step form ih =>
      rcases Form.exists_laidOut read with ⟨front, parts, back, laidOut⟩
      have inParts : Increasing parts.flatten := by
        rw [laidOut.covers] at increasing
        exact increasing.middle
      -- A child is read from a piece of the tokens, which is increasing again.
      have inside : ∀ child ∈ form.children,
          child.nodes.Pairwise Node.Precedes := by
        intro child isChild
        rcases laidOut.each.exists_part child isChild with
          ⟨before, part, behind, covers, readChild⟩
        refine ih child isChild readChild ?_
        rw [covers] at inParts
        exact inParts.middle
      rcases laidOut.heading_precedes increasing inside with
        ⟨amongHeading, beforeChildren⟩
      rw [form.nodes_eq]
      exact List.pairwise_append.mpr
        ⟨amongHeading, laidOut.each.precedes inParts inside, beforeChildren⟩

/--
Let a source be read as a form.  Every node stands in tokens of its own, which
lie in one piece among those of the source: a form at one of the tokens that
are read as that form, a group at the first token of its first argument or, if
there is none, at the closing parenthesis of its call.  In the order of a walk
no node stands in front of an earlier one, and two stand at one place only if
they are the group of a call and its first argument.
-/
theorem nodes_follow_source {source : String} {tokens : List Token}
    {form : Form} (read : tokenize source = .ok tokens)
    (parsed : Form.ofTokens tokens = .ok form) :
    (∀ node ∈ form.nodes, ∃ before own behind,
      tokens = before ++ (own ++ behind) ∧ node.StandsIn own) ∧
    form.nodes.Pairwise Node.Precedes :=
  ⟨Form.nodes_stand parsed, Form.nodes_precede parsed
    (lexed_of_tokenizeFrom read).increasing.1⟩

/-- A call whose group starts with its first argument, and one without arguments. -/
theorem nodes_follow_source_calls :
    ∃ tokens form, tokenize "(f x\n (g))" = .ok tokens ∧
      Form.ofTokens tokens = .ok form ∧
      form.nodes.map Node.position =
        [⟨1, 2⟩, ⟨1, 4⟩, ⟨1, 4⟩, ⟨2, 3⟩, ⟨2, 4⟩] ∧
      (∀ node ∈ form.nodes, ∃ before own behind,
        tokens = before ++ (own ++ behind) ∧ node.StandsIn own) ∧
      form.nodes.Pairwise Node.Precedes := by
  let tokens : List Token :=
    [⟨.opening, ⟨1, 1⟩⟩, ⟨.name "f", ⟨1, 2⟩⟩, ⟨.name "x", ⟨1, 4⟩⟩,
      ⟨.opening, ⟨2, 2⟩⟩, ⟨.name "g", ⟨2, 3⟩⟩, ⟨.closing, ⟨2, 4⟩⟩,
      ⟨.closing, ⟨2, 5⟩⟩]
  let form : Form :=
    .call ⟨"f", ⟨1, 2⟩⟩ ⟨1, 4⟩
      [.variable ⟨"x", ⟨1, 4⟩⟩, .call ⟨"g", ⟨2, 3⟩⟩ ⟨2, 4⟩ []]
  have read : tokenize "(f x\n (g))" = .ok tokens := by cbv
  have parsed : Form.ofTokens tokens = .ok form := rfl
  exact ⟨tokens, form, read, parsed, rfl, nodes_follow_source read parsed⟩

end ScopedLisp
