import ResourceStubs.Proofs.Yaml.Scanning
import ResourceStubs.Yaml.Anchors

/-!
# The tree of a JSON text

The grammar of YAML reads the tokens of a JSON value as the tree of that value (`Json.Value.tree`),
whatever follows them. It descends with a bound on its steps; a step for each token is enough,
because each level of brackets and each element has a token of its own. Sequences and mappings are
read by two functions with the same shape, so what they have in common is proved once
(`Yaml.read_separated`).

There are no anchors and no aliases in such a tree, and numbering them changes nothing
(`Yaml.ofNode_tree`).
-/

namespace ResourceStubs

open Yaml (Token)

namespace Json.Value

/-- Induction on the tree of a value. -/
lemma nestedInduction {motive : Value → Prop} (null : motive .null) (bool : ∀ b, motive (.bool b))
    (int : ∀ n, motive (.int n)) (string : ∀ text, motive (.string text))
    (array : ∀ items, (∀ v ∈ items, motive v) → motive (.array items))
    (object : ∀ members, (∀ m ∈ members, motive m.2) → motive (.object members)) (v : Value) :
    motive v :=
  @Value.rec motive (fun items => ∀ v ∈ items, motive v) (fun members => ∀ m ∈ members, motive m.2)
    (fun m => motive m.2) null bool int string array object (List.forall_mem_nil _)
    (fun _ _ hfirst hmore => List.forall_mem_cons.2 ⟨hfirst, hmore⟩) (List.forall_mem_nil _)
    (fun _ _ hfirst hmore => List.forall_mem_cons.2 ⟨hfirst, hmore⟩) (fun _ _ hvalue => hvalue) v

variable {α : Type}

mutual

/-- The tree of a value, without anchors and tags. -/
def tree : Value → Yaml.Node α
  | .null => .scalar {} .plain (text .null)
  | .bool value => .scalar {} .plain (text (.bool value))
  | .int value => .scalar {} .plain (text (.int value))
  | .string value => .scalar {} .quoted value
  | .array items => .sequence {} (itemTrees items)
  | .object members => .mapping {} (memberTrees members)

/-- The trees of the values of a list. -/
def itemTrees : List Value → List (Yaml.Node α)
  | [] => []
  | v :: more => tree v :: itemTrees more

/-- The trees of the members of an object, with their names. -/
def memberTrees : List (String × Value) → List (Yaml.Node α × Yaml.Node α)
  | [] => []
  | (key, v) :: more => (.scalar {} .quoted key, tree v) :: memberTrees more

end

end Json.Value

namespace Yaml

open Json (Value)

lemma itemTrees_eq {α : Type} (items : List Value) :
    Value.itemTrees items = items.map (Value.tree : Value → Node α) := by
  induction items with
  | nil => rw [Value.itemTrees, List.map_nil]
  | cons v more ih => rw [Value.itemTrees, ih, List.map_cons]

/-- The name and the tree of a member. -/
def memberTree {α : Type} (m : String × Value) : Node α × Node α :=
  (.scalar {} .quoted m.1, m.2.tree)

lemma memberTrees_eq {α : Type} (members : List (String × Value)) :
    Value.memberTrees members = members.map (memberTree : String × Value → Node α × Node α) := by
  induction members with
  | nil => rw [Value.memberTrees, List.map_nil]
  | cons m more ih => rw [Value.memberTrees, ih, List.map_cons, memberTree]

/-! ## From tokens to trees -/

section Parsing

variable {handles : TagHandles} {place : Place} {steps : Nat} {ts rest : List Token}

lemma node_scalar (style : Style) (text : String) :
    node handles (steps + 1) place (.scalar style text :: rest) =
      .ok (.scalar {} style text, rest) := rfl

lemma node_sequence :
    node handles (steps + 1) place (.flowSequenceStart :: ts) =
      (flowItems handles steps true >>= fun items => pure (.sequence {} items)) ts := rfl

lemma node_mapping :
    node handles (steps + 1) place (.flowMappingStart :: ts) =
      (flowEntries handles steps true >>= fun entries => pure (.mapping {} entries)) ts := rfl

lemma flowItems_end (first : Bool) :
    flowItems handles (steps + 1) first (.flowSequenceEnd :: rest) = .ok ([], rest) := rfl

lemma flowEntries_end (first : Bool) :
    flowEntries handles (steps + 1) first (.flowMappingEnd :: rest) = .ok ([], rest) :=
  rfl

/-- What stands in front of an element. -/
def comma (first : Bool) : List Token :=
  if first then [] else [.flowEntry]

section Elements

variable {γ β : Type} {read : Nat → Bool → TokenReader (List β)} {part : γ → List Token}
  {tree : γ → β} {last : Token} {as : List γ}

/-- The element is read behind a comma or as the first one, and then the elements behind it. -/
def ReadsElement (read : Nat → Bool → TokenReader (List β)) (part : List Token) (tree : β) : Prop :=
  ∀ steps first ts bs rest, part.length ≤ steps → read steps false ts = .ok (bs, rest) →
    read (steps + 1) first (comma first ++ (part ++ ts)) = .ok (tree :: bs, rest)

lemma read_more (hend : ∀ steps rest, read (steps + 1) false (last :: rest) = .ok ([], rest))
    (hcons : ∀ a ∈ as, ReadsElement read (part a) (tree a))
    (hlength : (as.flatMap fun a => .flowEntry :: part a).length < steps) :
    read steps false ((as.flatMap fun a => .flowEntry :: part a) ++ last :: rest) =
      .ok (as.map tree, rest) := by
  induction as generalizing steps with
  | nil =>
    obtain ⟨steps, rfl⟩ := Nat.exists_eq_succ_of_ne_zero (Nat.ne_of_gt hlength)
    exact hend steps rest
  | cons a as ih =>
    rw [List.flatMap_cons, List.length_append, List.length_cons] at hlength
    obtain ⟨steps, rfl⟩ := Nat.exists_eq_succ_of_ne_zero (Nat.ne_of_gt (Nat.zero_lt_of_lt hlength))
    rw [List.flatMap_cons, List.append_assoc]
    refine hcons a List.mem_cons_self steps false _ _ _ (by omega) ?_
    exact ih (fun b hb => hcons b (List.mem_cons_of_mem a hb)) (by omega)

/-- Reads elements with commas between them up to the closing bracket, given how the next element is
read. -/
lemma read_separated
    (hend : ∀ steps first rest, read (steps + 1) first (last :: rest) = .ok ([], rest))
    (hcons : ∀ a ∈ as, ReadsElement read (part a) (tree a)) (hpart : ∀ a, part a ≠ [])
    (hlength : (separated .flowEntry part as).length < steps) :
    read steps true (separated .flowEntry part as ++ last :: rest) = .ok (as.map tree, rest) := by
  obtain ⟨steps, rfl⟩ := Nat.exists_eq_succ_of_ne_zero (Nat.ne_of_gt (Nat.zero_lt_of_lt hlength))
  cases as with
  | nil => exact hend steps true rest
  | cons a as =>
    have hpos : 0 < (part a).length := List.length_pos_iff.2 (hpart a)
    rw [separated, List.length_append] at hlength
    rw [separated, List.append_assoc]
    refine hcons a List.mem_cons_self steps true _ _ _ (by omega) ?_
    exact read_more (fun steps => hend steps false)
      (fun b hb => hcons b (List.mem_cons_of_mem a hb)) (by omega)

end Elements

/-- Tokens that a value starts with. -/
def Token.startsValue : Token → Bool
  | .scalar _ _ => true
  | .flowSequenceStart => true
  | .flowMappingStart => true
  | _ => false

lemma exists_tokens_eq_cons (v : Value) :
    ∃ token ts, v.tokens = token :: ts ∧ token.startsValue = true := by
  cases v <;> rw [Value.tokens] <;> exact ⟨_, _, rfl, rfl⟩

lemma tokens_ne_nil (v : Value) : v.tokens ≠ [] := by
  obtain ⟨token, ts, htokens, -⟩ := exists_tokens_eq_cons v
  rw [htokens]
  exact List.cons_ne_nil token ts

lemma flowItems_cons (first : Bool) {token : Token} (h : token.startsValue = true) :
    flowItems handles (steps + 1) first (comma first ++ token :: ts) =
      (node handles steps .flow >>= fun item => flowItems handles steps false >>=
        fun more => pure (item :: more))
        (token :: ts) := by
  cases first <;> cases token <;> first | rfl | cases h

lemma flowEntries_cons (first : Bool) (key : String) {token : Token}
    (h : token.startsValue = true) :
    flowEntries handles (steps + 2) first
      (comma first ++ .key :: .scalar .quoted key :: .value :: token :: ts) =
      (node handles (steps + 1) .flow >>= fun value =>
        flowEntries handles (steps + 1) false >>= fun more =>
        pure ((.scalar {} .quoted key, value) :: more)) (token :: ts) := by
  cases first <;> cases token <;> first | rfl | cases h

/-- The tokens of a value are read as its tree, given steps for each of them. -/
def ReadsNode (handles : TagHandles) (v : Value) : Prop :=
  ∀ steps place rest, v.tokens.length ≤ steps →
    node handles steps place (v.tokens ++ rest) = .ok (v.tree, rest)

lemma readsElement_value {v : Value} (hv : ReadsNode handles v) :
    ReadsElement (flowItems handles) v.tokens v.tree := by
  intro steps first ts items rest hlength hmore
  have hnode := hv steps .flow ts hlength
  obtain ⟨token, more, htokens, hstarts⟩ := exists_tokens_eq_cons v
  rw [htokens, List.cons_append] at hnode ⊢
  rw [flowItems_cons first hstarts, bind_of_ok hnode, bind_of_ok hmore]
  rfl

lemma readsElement_member {m : String × Value} (hm : ReadsNode handles m.2) :
    ReadsElement (flowEntries handles) (memberPart m) (memberTree m) := by
  intro steps first ts entries rest hlength hmore
  rw [memberPart, List.length_cons, List.length_cons, List.length_cons] at hlength
  have hnode := hm steps .flow ts (by omega)
  obtain ⟨token, more, htokens, hstarts⟩ := exists_tokens_eq_cons m.2
  obtain ⟨steps, rfl⟩ := Nat.exists_eq_succ_of_ne_zero (Nat.ne_of_gt (Nat.zero_lt_of_lt hlength))
  rw [memberPart, List.cons_append, List.cons_append, List.cons_append]
  rw [htokens, List.cons_append] at hnode ⊢
  rw [flowEntries_cons first m.1 hstarts, bind_of_ok hnode, bind_of_ok hmore]
  rfl

lemma flowItems_itemTokens {items : List Value} (h : ∀ v ∈ items, ReadsNode handles v)
    (hlength : (Value.itemTokens items).length < steps) :
    flowItems handles steps true (Value.itemTokens items ++ .flowSequenceEnd :: rest) =
      .ok (Value.itemTrees items, rest) := by
  rw [itemTokens_eq] at hlength ⊢
  rw [itemTrees_eq]
  have helement := fun v hv => readsElement_value (h v hv)
  exact read_separated (fun _ first _ => flowItems_end first) helement tokens_ne_nil hlength

lemma flowEntries_memberTokens {members : List (String × Value)}
    (h : ∀ m ∈ members, ReadsNode handles m.2)
    (hlength : (Value.memberTokens members).length < steps) :
    flowEntries handles steps true (Value.memberTokens members ++ .flowMappingEnd :: rest) =
      .ok (Value.memberTrees members, rest) := by
  rw [memberTokens_eq] at hlength ⊢
  rw [memberTrees_eq]
  exact read_separated (fun _ first _ => flowEntries_end first)
    (fun m hm => readsElement_member (h m hm))
    (fun m => List.cons_ne_nil _ _) hlength

/-- The grammar reads the tokens of a value as its tree. -/
lemma readsNode (handles : TagHandles) (v : Value) : ReadsNode handles v := by
  induction v using Value.nestedInduction with
  | null | bool _ | int _ | string _ =>
    intro steps place rest hlength
    rw [Value.tokens] at hlength ⊢
    obtain ⟨steps, rfl⟩ := Nat.exists_eq_succ_of_ne_zero (Nat.ne_of_gt hlength)
    rw [Value.tree]
    exact node_scalar _ _
  | array items ih =>
    intro steps place rest hlength
    rw [Value.tokens, List.length_append, List.length_cons, List.length_singleton] at hlength
    obtain ⟨steps, rfl⟩ := Nat.exists_eq_succ_of_ne_zero (Nat.ne_of_gt (Nat.zero_lt_of_lt hlength))
    rw [Value.tokens, List.cons_append, List.cons_append, List.append_assoc, List.singleton_append,
      node_sequence, bind_of_ok (flowItems_itemTokens ih (by omega)), Value.tree]
    rfl
  | object members ih =>
    intro steps place rest hlength
    rw [Value.tokens, List.length_append, List.length_cons, List.length_singleton] at hlength
    obtain ⟨steps, rfl⟩ := Nat.exists_eq_succ_of_ne_zero (Nat.ne_of_gt (Nat.zero_lt_of_lt hlength))
    rw [Value.tokens, List.cons_append, List.cons_append, List.append_assoc, List.singleton_append,
      node_mapping, bind_of_ok (flowEntries_memberTokens ih (by omega)), Value.tree]
    rfl

lemma document_object (members : List (String × Value)) :
    document ((Value.object members).tokens ++ [.streamEnd]) =
      .ok (some (Value.object members).tree) := by
  have hnode := readsNode standardHandles (.object members)
    (2 * ((Value.object members).tokens ++ [Token.streamEnd]).length + 2)
    .entry [.streamEnd] (by rw [List.length_append]; omega)
  rw [Value.tokens, List.cons_append, List.cons_append] at hnode ⊢
  generalize
    (Value.memberTokens members ++ [Token.flowMappingEnd]) ++ [Token.streamEnd] = ts at hnode ⊢
  have hdocument : document (.flowMappingStart :: ts) =
      (node standardHandles (2 * (Token.flowMappingStart :: ts).length + 2) .entry
        (.flowMappingStart :: ts) >>= document.finish) := by
    have hnot : Token.isDirective .flowMappingStart = false := rfl
    simp only [document, List.takeWhile_cons, List.dropWhile_cons, hnot]
    simp
    rfl
  rw [hdocument, hnode]
  rfl

end Parsing

/-! ## Anchors -/

lemma numberedItems_map {items : List Value}
    (h : ∀ v ∈ items, ∀ anchors, ∃ anchors', v.tree.numbered anchors = .ok (v.tree, anchors'))
    (anchors : Anchors) :
    ∃ anchors', Node.numberedItems (items.map Value.tree) anchors =
      .ok (items.map Value.tree, anchors') := by
  induction items generalizing anchors with
  | nil => exact ⟨anchors, rfl⟩
  | cons v items ih =>
    obtain ⟨between, hfirst⟩ := h v List.mem_cons_self anchors
    obtain ⟨after, hmore⟩ := ih (fun w hw => h w (List.mem_cons_of_mem v hw)) between
    refine ⟨after, ?_⟩
    rw [List.map_cons, List.map_cons, Node.numberedItems, bind_of_ok hfirst, bind_of_ok hmore]
    rfl

lemma numberedEntries_map {members : List (String × Value)}
    (h : ∀ m ∈ members, ∀ anchors, ∃ anchors', m.2.tree.numbered anchors = .ok (m.2.tree, anchors'))
    (anchors : Anchors) :
    ∃ anchors', Node.numberedEntries (members.map memberTree) anchors =
      .ok (members.map memberTree, anchors') := by
  induction members generalizing anchors with
  | nil => exact ⟨anchors, rfl⟩
  | cons m members ih =>
    have hkey : (Node.scalar {} .quoted m.1).numbered anchors =
        .ok (.scalar {} .quoted m.1, { anchors with events := anchors.events + 1 }) := rfl
    obtain ⟨between, hvalue⟩ := h m List.mem_cons_self { anchors with events := anchors.events + 1 }
    obtain ⟨after, hmore⟩ := ih (fun n hn => h n (List.mem_cons_of_mem m hn)) between
    refine ⟨after, ?_⟩
    rw [List.map_cons, List.map_cons, memberTree, memberTree, Node.numberedEntries, bind_of_ok hkey,
      bind_of_ok hvalue, bind_of_ok hmore]
    rfl

/-- A tree of a value has no anchors and no aliases, so numbering leaves it as it is. -/
lemma numbered_tree (v : Value) (anchors : Anchors) :
    ∃ anchors', v.tree.numbered anchors = .ok (v.tree, anchors') := by
  have hstart : Anchors.start {} anchors =
      .ok (anchors.events, { anchors with events := anchors.events + 1 }) := rfl
  have hcount (after : Anchors) :
      Anchors.count after = .ok (after.events, { after with events := after.events + 1 }) := rfl
  induction v using Value.nestedInduction generalizing anchors with
  | null | bool _ | int _ | string _ =>
    rw [Value.tree, Value.tree]
    exact ⟨_, rfl⟩
  | array items ih =>
    obtain ⟨after, hitems⟩ := numberedItems_map (fun v hv anchors => ih v hv anchors rfl)
      { anchors with events := anchors.events + 1 }
    refine ⟨{ after with events := after.events + 1 }, ?_⟩
    rw [Value.tree, Value.tree, itemTrees_eq, itemTrees_eq, Node.numbered, bind_of_ok hstart,
      bind_of_ok hitems, bind_of_ok (hcount after)]
    rfl
  | object members ih =>
    obtain ⟨after, hmembers⟩ := numberedEntries_map (fun m hm anchors => ih m hm anchors rfl)
      { anchors with events := anchors.events + 1 }
    refine ⟨{ after with events := after.events + 1 }, ?_⟩
    rw [Value.tree, Value.tree, memberTrees_eq, memberTrees_eq, Node.numbered, bind_of_ok hstart,
      bind_of_ok hmembers, bind_of_ok (hcount after)]
    rfl

lemma ofNode_tree (v : Value) : ∃ graph, Graph.ofNode v.tree = .ok graph ∧ graph.root = v.tree := by
  obtain ⟨anchors, hnumbered⟩ := numbered_tree v {}
  rw [Graph.ofNode, StateT.run, hnumbered]
  exact ⟨_, rfl, rfl⟩

end Yaml

end ResourceStubs
