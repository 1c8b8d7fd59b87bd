import ConfTree.Proofs.Evaluation.CanonicalReference
import ConfTree.Proofs.Expression.Integers
import ConfTree.Proofs.Script.Copying
import ConfTree.Proofs.Script.Limits

/-!
# Counting loops

A loop reads a counter in its condition, names a section after it and assigns one more to it. What
stands in the script is a text each time: the counter is printed into the condition, which is read
as an expression, and the sum is printed again and stored. `Counts` is the invariant of the script
between rounds. Each round adds one section and takes three steps (`Counts.rounds`), so a run takes
exactly the steps of its rounds and one more, or ends with a timeout (`execute_counting`).
-/

namespace ConfTree

open ConfTree.Configuration

/-! ## Counter of a shape -/

namespace Configuration

/-- The node is live, with this name, this value and these entries. -/
def Stands (conf : Configuration) (id : NodeId) (name : String) (value : Option String)
    (attributes children : List NodeId) : Prop :=
  ∃ d, conf.live? id = some d ∧ d.name = name ∧ d.value = value ∧
    d.entries .attributeKind = attributes ∧ d.entries .sectionKind = children

section

variable {conf : Configuration} {id : NodeId} {name : String} {value : Option String}
  {attributes children : List NodeId}

namespace Stands

variable (h : conf.Stands id name value attributes children)

include h

/-- The node has the name that was written. -/
lemma nameOf : conf.nameOf id = name := by
  obtain ⟨d, live, named, -⟩ := h
  rw [Configuration.nameOf, live]
  exact named

/-- The node has the value that was written. -/
lemma verbatim? : conf.verbatim? id = value := by
  obtain ⟨d, live, -, valued, -⟩ := h
  rw [Configuration.verbatim?, live]
  exact valued

/-- The node has the attributes that were written. -/
lemma attributesOf : conf.attributesOf id = attributes := by
  obtain ⟨d, live, -, -, listed, -⟩ := h
  rw [attributesOf_eq live, listed]

/-- The node has the child sections that were written. -/
lemma childrenOf : conf.childrenOf id = children := by
  obtain ⟨d, live, -, -, -, listed⟩ := h
  rw [childrenOf_eq live, listed]

/-- The node is known by the name that was written, in any ASCII case. -/
lemma hasName (other : String) : conf.hasName id other = Text.sameName name other := by
  obtain ⟨d, live, named, -⟩ := h
  rw [Configuration.hasName, live]
  exact congrArg (Text.sameName · other) named

end Stands

section

variable (wf : conf.WellFormed) {p : NodeId} {pname : String} {pvalue : Option String}
  {attrs : List NodeId} {secs : List NodeId} (parent : conf.Stands p pname pvalue attrs secs)

include wf parent

/-- A child section is read off its shape. -/
lemma Stands.child (listed : id ∈ secs) {pairs : List (String × Option String)}
    {shapes : List Shape} (shape : conf.shape id = .mk name value pairs shapes) :
    ∃ attributes children, conf.Stands id name value attributes children ∧
      attributes.map conf.pairOf = pairs ∧ children.map conf.shape = shapes := by
  obtain ⟨pd, plive, -, -, -, rfl⟩ := parent
  obtain ⟨d, live, -⟩ := wf.listed p pd _ id plive listed
  rw [shape_eq wf live] at shape
  injection shape with named valued pairs shapes
  exact ⟨_, _, ⟨d, live, named, valued, rfl, rfl⟩, pairs, shapes⟩

/-- An attribute is read off its looks. -/
lemma Stands.attribute (listed : id ∈ attrs) (pair : conf.pairOf id = (name, value)) :
    conf.Stands id name value [] [] := by
  obtain ⟨pd, plive, -, -, rfl, -⟩ := parent
  obtain ⟨d, live, kind, -⟩ := wf.listed p pd _ id plive listed
  rw [pairOf_eq live] at pair
  obtain ⟨rfl, rfl⟩ := Prod.mk.inj pair
  exact ⟨d, live, rfl, rfl, NodeData.entries_of_attribute kind _,
    NodeData.entries_of_attribute kind _⟩

end

end

end Configuration

namespace Script

/-! ## The script -/

/-- A script whose attribute counts up to a bound, with a section of the result for each number on
the way. -/
def countingScript (name : String) (value : Option String) (k bound : Nat) : Shape :=
  .mk name value [("i", some (toString k))]
    [.mk "_loop" (some ("$(/$i)<" ++ toString bound)) []
      [.mk "section_$(/$i)" none [] [],
        .mk "_set" none [("path", some "/$i"), ("to", some "$(/$i)+1")] []]]

/-- The section of the result for a number. -/
def numbered (k : Nat) : Shape := .mk ("section_" ++ toString k) none [] []

/-- The script has counted up to a number, and this is its loop. -/
structure Counts (name : String) (value : Option String) (bound : Nat) (loop : NodeId)
    (k : Nat) (conf : Configuration) : Prop where
  wellFormed : conf.WellFormed
  writable : conf.readOnly = false
  shape : conf.shape root = countingScript name value k bound
  loops : conf.childrenOf root = [loop]

/-- The nodes of a script that has counted up to a number: the counter, the loop, the section that
is copied, and the assignment with its path and its expression. -/
structure Counter (conf : Configuration) (bound : Nat) (loop : NodeId) (k : Nat)
    (count item assign address formula : NodeId) : Prop where
  attributes : conf.attributesOf root = [count]
  count : conf.Stands count "i" (some (toString k)) [] []
  loop : conf.Stands loop "_loop" (some ("$(/$i)<" ++ toString bound)) [] [item, assign]
  item : conf.Stands item "section_$(/$i)" none [] []
  assign : conf.Stands assign "_set" none [address, formula] []
  address : conf.Stands address "path" (some "/$i") [] []
  formula : conf.Stands formula "to" (some "$(/$i)+1") [] []

/-- No number holds the mark of references. -/
lemma noMark_toString (k : Nat) : '$' ∉ (toString k).toList :=
  fun mark => absurd (Text.isDigit_of_mem_toString mark) (by decide)

/-- The condition, with the number in it. -/
lemma calculate_less {k bound : Nat} (small : k ≤ 2 ^ 53) (bounded : bound ≤ 2 ^ 53) :
    calculate (toString k ++ ("<" ++ toString bound)) = .ok (.bool (decide (k < bound))) := by
  have range : 2 ^ 53 ≤ Text.IntegerRange.signed64.greatest := by decide
  have evaluated : Expression.evaluate (toString k ++ ("<" ++ toString bound)) =
      .ok (.bool (decide (k < bound))) := by
    rw [← Expression.apply_less small bounded, ← String.append_assoc]
    exact Expression.evaluate_integers .less (by omega) (by omega)
  rw [calculate, evaluated]
  rfl

/-- The expression that is assigned, with the number in it. -/
lemma calculate_next {k : Nat} (small : k < 2 ^ 53) :
    calculate (toString k ++ "+1") = .ok (.int (k + 1 : Nat)) := by
  have range : 2 ^ 53 ≤ Text.IntegerRange.signed64.greatest := by decide
  have text : toString k ++ "+1" = toString k ++ Expression.Operator.add.mark ++ toString 1 := by
    rw [String.append_assoc]
    rfl
  rw [calculate, text, Expression.evaluate_integers .add (by omega) (by decide),
    Expression.apply_add (by omega)]
  rfl

/-- The name of the section for a number is kept as it is. -/
lemma trim_numbered (k : Nat) :
    Text.trim ("section_" ++ toString k) = "section_" ++ toString k := by
  have front : Text.Tight "section_".toList :=
    ⟨by rintro _ ⟨⟩; decide, by rintro _ ⟨⟩; decide⟩
  have digits : (toString k).toList ≠ [] := Text.toList_toString_ne_nil k
  have tight : Text.Tight ("section_" ++ toString k).toList := by
    rw [String.toList_append]
    exact Path.tight_append front (Text.tight_toString k) (by decide) digits
  exact Text.trim_of_tight tight

section

variable {conf : Configuration} {name : String} {value : Option String} {bound k : Nat}
  {loop : NodeId}

/-- The nodes of a script are read off its shape. -/
lemma Counts.nodes (h : Counts name value bound loop k conf) :
    ∃ count item assign address formula,
      Counter conf bound loop k count item assign address formula := by
  obtain ⟨rd, live, -⟩ := h.wellFormed.root
  have shape := h.shape
  rw [shape_eq h.wellFormed live] at shape
  injection shape with named valued attributes children
  obtain ⟨count, listed, counted⟩ := List.map_eq_singleton_iff.1 attributes
  have loops := h.loops
  rw [childrenOf_eq live] at loops
  rw [loops] at children
  have top : conf.Stands root name value [count] [loop] :=
    ⟨rd, live, named, valued, listed, loops⟩
  obtain ⟨_, _, standing, none, children⟩ :=
    top.child h.wellFormed List.mem_cons_self (List.head_eq_of_cons_eq children)
  obtain rfl := List.map_eq_nil_iff.1 none
  obtain ⟨item, rest, rfl, itemShape, children⟩ := List.map_eq_cons_iff.1 children
  obtain ⟨assign, rfl, assignShape⟩ := List.map_eq_singleton_iff.1 children
  obtain ⟨_, _, itemStands, none, none'⟩ :=
    standing.child h.wellFormed List.mem_cons_self itemShape
  obtain rfl := List.map_eq_nil_iff.1 none
  obtain rfl := List.map_eq_nil_iff.1 none'
  obtain ⟨_, _, assignStands, attributes, none⟩ :=
    standing.child h.wellFormed (List.mem_cons_of_mem _ List.mem_cons_self) assignShape
  obtain rfl := List.map_eq_nil_iff.1 none
  obtain ⟨address, rest, rfl, addressPair, attributes⟩ := List.map_eq_cons_iff.1 attributes
  obtain ⟨formula, rfl, formulaPair⟩ := List.map_eq_singleton_iff.1 attributes
  exact ⟨count, item, assign, address, formula, top.attributesOf,
    top.attribute h.wellFormed List.mem_cons_self counted, standing, itemStands, assignStands,
    assignStands.attribute h.wellFormed List.mem_cons_self addressPair,
    assignStands.attribute h.wellFormed (List.mem_cons_of_mem _ List.mem_cons_self) formulaPair⟩

/-! ## What a round reads -/

section

variable {count item assign address formula : NodeId}
  (h : Counter conf bound loop k count item assign address formula)

include h

/-- The path of the counter leads to it from everywhere. -/
lemma Counter.navigate (valueOf : Path.ValueOf Eval) (start : Option NodeId) :
    Path.navigate conf valueOf start "/$i" = pure (some count) := by
  have spelled : Path.Spells ("$" ++ "i").toList (.attributeNamed "i") :=
    .attribute (by decide) ⟨by decide, by decide⟩
  have text : "/$i" = String.ofList (Path.pathChars [("$" ++ "i").toList]) := by decide
  have found : Path.keyAttribute? conf root "i" = some count := by
    rw [Path.keyAttribute?, h.attributes, List.find?_singleton, h.count.hasName]
    rfl
  rw [text, Path.navigate_pathChars start (.cons spelled .nil)]
  simp only [Path.follow, Path.step, found, pure_bind]

/-- The counter holds no reference. -/
lemma Counter.literal_count : ∀ raw ∈ conf.verbatim? count, hasReference raw.toList = false := by
  rw [h.count.verbatim?]
  rintro _ ⟨⟩
  exact hasReference_of_noMark (noMark_toString k)

/-- The counter needs no evaluation. -/
lemma Counter.apply_count (process : Host) (room : Nat) (s : EvalState) :
    (nodeValueWithin Eval process conf room count).apply s = (.ok (some (toString k)), s) := by
  rw [nodeValueWithin_literal h.literal_count, h.count.verbatim?]
  rfl

/-- A reference to the counter stands for the number. -/
lemma Counter.apply_resolve (process : Host) {valueOf : Path.ValueOf Eval}
    (counted : ∀ s, (valueOf count).apply s = (.ok (some (toString k)), s))
    (context : Option NodeId) (s : EvalState) :
    ((Reference.read "/$i".toList).resolve process conf valueOf context).apply s =
      (.ok (toString k), s) := by
  have reference : Reference.read "/$i".toList = ⟨false, "/$i", .node "/$i", none⟩ :=
    read_path ⟨by rintro _ ⟨⟩; decide, by rintro _ ⟨⟩; decide⟩ (by decide)
  rw [reference]
  simp only [Reference.resolve, Target.input, h.navigate, pure_bind, bind_assoc]
  rw [Eval.apply_bind_ok (counted s)]
  rfl

/-- In a text the reference to the counter is substituted. -/
lemma Counter.apply_evaluateText (process : Host) {valueOf : Path.ValueOf Eval}
    (counted : ∀ s, (valueOf count).apply s = (.ok (some (toString k)), s))
    (context : Option NodeId) (before after : String) (noMark : '$' ∉ before.toList)
    (plain : hasReference after.toList = false) (s : EvalState)
    (few : s.substitutions < maxSubstitutions) :
    (evaluateText process conf valueOf context (before ++ "$(/$i)" ++ after)).apply s =
      (.ok (before ++ toString k ++ after), { s with substitutions := s.substitutions + 1 }) := by
  have chars : (before ++ "$(/$i)" ++ after).toList =
      before.toList ++ '$' :: '(' :: ("/$i".toList ++ ')' :: after.toList) := by
    simp
  rw [evaluateText_reference noMark (by decide) (by decide) plain chars,
    Eval.apply_bind_ok (Eval.apply_countSubstitution_ok _ few),
    Eval.apply_bind_ok (h.apply_resolve process counted context _), Eval.apply_pure]
  simp only [String.ofList_append, String.ofList_toList, String.append_assoc]

/-- A value that starts with the reference to the counter starts with the number. -/
lemma Counter.value? (process : Host) {id : NodeId} {own after : String}
    {attributes children : List NodeId}
    (stands : conf.Stands id own (some ("$(/$i)" ++ after)) attributes children)
    (plain : hasReference after.toList = false) :
    conf.value? process id = .ok (some (toString k ++ after)) := by
  obtain ⟨d, live, -, value, -⟩ := stands
  have opens : hasReference ("$(/$i)" ++ after).toList = true := by
    rw [String.toList_append]
    rfl
  have inside := h.apply_evaluateText process (h.apply_count process 255) (contextOf id d) ""
    after (by decide) plain ⟨[id], 0⟩ (show 0 < maxSubstitutions by decide)
  rw [String.empty_append, String.empty_append] at inside
  have run : (nodeValue Eval process conf id).apply .start =
      (nodeValueWithin Eval process conf (255 + 1) id).apply .start :=
        Eval.apply_bind_ok Eval.apply_get
  have within : (Nests.within id (evaluateText process conf (nodeValueWithin Eval process conf 255)
      (contextOf id d) ("$(/$i)" ++ after))).apply .start =
        (.ok (toString k ++ after), ⟨[], 1⟩) := by
    rw [Eval.apply_within, EvalState.start, inside]
    rfl
  rw [apply_nodeValueWithin_succ live value opens List.not_mem_nil,
    Eval.apply_bind_ok within] at run
  exact congrArg Prod.fst run

/-- The condition compares the number with the bound. -/
lemma Counter.holds (process : Host) (small : k ≤ 2 ^ 53) (bounded : bound ≤ 2 ^ 53) :
    holds process conf loop = .ok (decide (k < bound)) := by
  have loop := h.loop
  have split : "$(/$i)<" ++ toString bound = "$(/$i)" ++ ("<" ++ toString bound) := by
    rw [← String.append_assoc]
    rfl
  rw [split] at loop
  have plain : hasReference ("<" ++ toString bound).toList = false := by
    refine hasReference_of_noMark ?_
    rw [String.toList_append, List.mem_append, not_or]
    exact ⟨by decide, noMark_toString bound⟩
  rw [Script.holds, h.value? process loop plain, Exit.lift_ok, ok_bind, Option.getD_some,
    calculate_less small bounded]
  rfl

/-- The assignment has the path of the counter. -/
lemma Counter.path (process : Host) :
    attributeValue process conf assign "path" = .ok (some "/$i") := by
  have named : conf.isNamed address "path" = true := by
    rw [isNamed, h.address.hasName]
    decide
  have found : conf.attribute? assign "path" = some address := by
    simp only [attribute?, h.assign.attributesOf, List.find?_cons, named]
  have literal : ∀ raw ∈ conf.verbatim? address, hasReference raw.toList = false := by
    rw [h.address.verbatim?]
    rintro _ ⟨⟩
    decide
  rw [attributeValue, found, valueOf?, value?_literal literal, h.address.verbatim?]

/-- The assignment has the sum of the number and one, as an expression. -/
lemma Counter.sum (process : Host) :
    attributeValue process conf assign "to" = .ok (some (toString k ++ "+1")) := by
  have other : conf.isNamed address "to" = false := by
    rw [isNamed, h.address.hasName]
    decide
  have named : conf.isNamed formula "to" = true := by
    rw [isNamed, h.formula.hasName]
    decide
  have found : conf.attribute? assign "to" = some formula := by
    simp only [attribute?, h.assign.attributesOf, List.find?_cons, other, named]
  rw [attributeValue, found, valueOf?]
  exact h.value? process h.formula (by decide)

/-- The assignment gives the counter the next number. -/
lemma Counter.assignmentOf (process : Host) (small : k < 2 ^ 53) :
    assignmentOf process conf assign = .ok (count, toString (k + 1)) := by
  have target : conf.navigate process (some assign) "/$i" = .ok (some count) := by
    rw [Configuration.navigate, h.navigate]
    rfl
  rw [Script.assignmentOf, h.path, Exit.lift_ok, ok_bind]
  dsimp only
  rw [h.sum, Exit.lift_ok, ok_bind, Option.getD_some, calculate_next small, ok_bind, target]
  rfl

/-- The section that is copied is named after the number. -/
lemma Counter.headerOf (process : Host) :
    headerOf process conf item = .ok ⟨"section_" ++ toString k, none, []⟩ := by
  have counted : ∀ s, (nodeValue Eval process conf count).apply s = (.ok (some (toString k)), s) :=
    fun s => (Eval.apply_bind_ok Eval.apply_get).trans (h.apply_count process _ s)
  have named (node : Option NodeId) :
      conf.evaluate process node "section_$(/$i)" = .ok ("section_" ++ toString k) := by
    have substituted := h.apply_evaluateText process counted
      (node.bind fun id => if conf.isSection id then some id else conf.parent? id) "section_"
      "" (by decide) (by decide) .start (by decide)
    rw [String.append_empty, String.append_empty] at substituted
    exact congrArg Prod.fst substituted
  have literal : ∀ raw ∈ conf.verbatim? item, hasReference raw.toList = false := by
    rw [h.item.verbatim?]
    nofun
  rw [Script.headerOf, h.item.nameOf, named, value?_literal literal, h.item.verbatim?,
    h.item.attributesOf]
  rfl

/-- The section is copied. -/
lemma Counter.isScriptOnly (process : Host) : isScriptOnly process conf item = .ok false := by
  rw [Script.isScriptOnly, attributeValue, attribute?, h.item.attributesOf]
  rfl

/-- The root of the result has the attribute that counts, as it stands at the start. -/
lemma Counter.headerOf_root (counts : Counts name value bound loop k conf) {process : Host}
    {name' : String} {value' : Option String}
    (named : conf.evaluate process (some root) name = .ok name')
    (valued : conf.value? process root = .ok value') :
    Script.headerOf process conf root = .ok ⟨name', value', [("i", some (toString k))]⟩ := by
  obtain ⟨d, live, -, top⟩ := counts.wellFormed.root
  have own : conf.nameOf root = name := by
    rw [nameOf, live]
    exact (of_shape_eq counts.wellFormed live counts.shape).1
  have context : (conf.parent? root).getD root = root := by
    rw [parent?, live, Option.bind_some, top]
    rfl
  have copied : conf.isNamed count scriptOnly = false := by
    rw [isNamed, h.count.hasName]
    decide
  have attributes : headerAttributes process conf [count] = .ok [("i", some (toString k))] := by
    rw [headerAttributes, copied, if_neg (by decide), value?_literal h.literal_count,
      h.count.verbatim?, h.count.nameOf]
    rfl
  rw [Script.headerOf, context, own, named, valued, h.attributes, attributes]
  rfl

/-- The script after the assignment has counted one further. -/
lemma Counter.next (counts : Counts name value bound loop k conf) :
    Counts name value bound loop (k + 1) (conf.replaceValue count (some (toString (k + 1)))) := by
  have wf := counts.wellFormed
  obtain ⟨rd, live, -⟩ := wf.root
  obtain ⟨cd, found, named, -⟩ := h.count
  have listed : rd.entries .attributeKind = [] ++ count :: [] := by
    rw [← attributesOf_eq live, h.attributes]
    rfl
  have mem : count ∈ rd.entries .attributeKind := by
    rw [listed]
    exact List.mem_cons_self
  have confined := Confined.replaceValue count (some (toString (k + 1))) wf
  have before := counts.shape
  rw [shape_eq wf live] at before
  injection before with rootNamed rootValued _ children
  refine ⟨confined.wellFormed, counts.writable, ?_, ?_⟩
  · rw [confined.shape_attribute wf live listed, pairOf_replaceValue found, named, rootNamed,
      rootValued, children]
    rfl
  · rw [← counts.loops, childrenOf_eq live,
      childrenOf_eq (confined.live_parent wf live mem)]

end

end

/-! ## Runs -/

section

variable {limits : Limits} {name : String} {value : Option String}
  {bound k depth : Nat} {loop target : NodeId} {p : Progress}

section

variable {count item assign address formula : NodeId}
  (nodes : Counter p.source bound loop k count item assign address formula)
  (within : p.steps + 1 ≤ limits.steps)

include nodes within

/-- The first visit of a round adds the section of the number. Its own body is empty. -/
lemma Counter.visit_item (process : Host) (opened : Open p.result target)
    (deep : depth + 1 ≤ limits.depth) :
    ∃ log result, Runs process limits depth (.visit none item target) p log (.ok none)
        ⟨p.source, result, p.steps + 1⟩ ∧ Appends target p.result result [numbered k] := by
  have named : Text.trim ("section_" ++ toString k) ≠ "" := by
    rw [trim_numbered]
    intro blank
    have chars := congrArg String.toList blank
    rw [String.toList_append] at chars
    cases chars
  obtain ⟨added, result, add, attributes, inner, fill⟩ := addSection_spec opened none named
    (fun a (ha : a ∈ ([] : List (String × Option String))) => by cases ha)
  have appended := fill (.refl inner)
  rw [trim_numbered] at appended
  obtain ⟨d, live, own, -⟩ := nodes.item
  have plain : Control.ofName? d.name = none := by
    rw [own]
    decide
  have ordinary : isReserved d.name = false := by
    rw [own]
    decide
  let p' : Progress := ⟨p.source, result, p.steps + 1⟩
  have empty : Runs process limits (depth + 1)
      (.visits none (p'.source.childrenOf item) p.result.nodes.size) p' [] (.ok none) p' := by
    rw [nodes.item.childrenOf]
    exact .visited
  exact ⟨_, result, .ordinary within live plain ordinary (.copied (nodes.isScriptOnly process)
    (nodes.headerOf process) add attributes (.block deep empty)), appended⟩

/-- The second visit of a round counts one further. -/
lemma Counter.visit_assign (process : Host) (depth : Nat) (target : NodeId)
    (counts : Counts name value bound loop k p.source) (small : k < 2 ^ 53) :
    ∃ log source, Runs process limits depth (.visit none assign target) p log (.ok none)
        ⟨source, p.result, p.steps + 1⟩ ∧ Counts name value bound loop (k + 1) source := by
  obtain ⟨_, counted, -⟩ := nodes.count
  obtain ⟨d, live, own, -⟩ := nodes.assign
  have control : Control.ofName? d.name = some .assign := by
    rw [own]
    decide
  have found : Script.assignmentOf process p.tick.source assign = .ok (count, toString (k + 1)) :=
    nodes.assignmentOf process small
  have set : (Edit.setValue count (some (toString (k + 1)))).apply p.tick.source =
      (.ok (), p.source.replaceValue count (some (toString (k + 1)))) :=
    Edit.apply_setValue counts.writable counted
  exact ⟨_, _, .control within live control (.assign found set), nodes.next counts⟩

end

/-- The body of the loop adds the section of the number and counts one further, in two steps. -/
lemma Counts.body (process : Host) (h : Counts name value bound loop k p.source)
    (small : k < 2 ^ 53) (opened : Open p.result target) (deep : depth + 1 ≤ limits.depth)
    (enough : p.steps + 2 ≤ limits.steps) :
    ∃ log p', Runs process limits depth (.block loop target) p log (.ok none) p' ∧
      p'.steps = p.steps + 2 ∧ Counts name value bound loop (k + 1) p'.source ∧
      Appends target p.result p'.result [numbered k] := by
  obtain ⟨count, item, assign, address, formula, nodes⟩ := h.nodes
  obtain ⟨_, result, first, appended⟩ := nodes.visit_item (by omega) process opened deep
  let mid : Progress := ⟨p.source, result, p.steps + 1⟩
  have nodes' : Counter mid.source bound loop k count item assign address formula := nodes
  obtain ⟨_, source, second, next⟩ := nodes'.visit_assign enough process depth target h small
  have visits := Runs.next first (.next second .visited)
  rw [← nodes.loop.childrenOf] at visits
  exact ⟨_, _, .block (by omega) visits, rfl, next, appended⟩

/-- The loop adds the sections of all numbers that are left, in three steps each. -/
lemma Counts.rounds (process : Host) (h : Counts name value bound loop k p.source)
    (le : k ≤ bound) (small : bound ≤ 2 ^ 53) (opened : Open p.result target)
    (deep : depth + 2 ≤ limits.depth) (enough : p.steps + 3 * (bound - k) ≤ limits.steps) :
    ∃ log p', Runs process limits depth (.rounds loop target) p log (.ok none) p' ∧
      p'.steps = p.steps + 3 * (bound - k) ∧ Counts name value bound loop bound p'.source ∧
      Appends target p.result p'.result ((List.range' k (bound - k)).map numbered) := by
  -- The induction is on the numbers that are left.
  induction left : bound - k generalizing k p with
  | zero =>
    obtain rfl : k = bound := by omega
    obtain ⟨count, item, assign, address, formula, nodes⟩ := h.nodes
    have condition := nodes.holds process small small
    rw [decide_eq_false (Nat.lt_irrefl k)] at condition
    exact ⟨_, p, .roundsEnd condition, rfl, h, .refl opened⟩
  | succ n ih =>
    obtain ⟨count, item, assign, address, formula, nodes⟩ := h.nodes
    have less : k < bound := by omega
    have condition := nodes.holds process (le.trans small) small
    rw [decide_eq_true less] at condition
    have start : Counts name value bound loop k p.tick.source := h
    have enough' : p.tick.steps + 2 ≤ limits.steps := by
      rw [Progress.steps_tick]
      omega
    obtain ⟨log, mid, body, steps, next, first⟩ :=
      start.body process (by omega) opened deep enough'
    rw [Progress.steps_tick] at steps
    obtain ⟨log', p', rest, steps', ended, others⟩ :=
      ih next (by omega) (opened.of_confined first.confined) (by omega) (by omega)
    refine ⟨_, p', .round condition (by omega) body rest, by omega, ended, ?_⟩
    rw [List.range'_succ, List.map_cons]
    exact first.trans opened others

/-- A whole run takes a step for the loop and three for each number. -/
lemma Counts.execute {process : Host} {source result : Configuration} {s : Nat}
    {name' : String} {value' : Option String} (counts : Counts name value bound loop s source)
    (le : s ≤ bound) (small : bound ≤ 2 ^ 53)
    (named : source.evaluate process (some root) name = .ok name') (solid : Text.trim name' ≠ "")
    (valued : source.value? process root = .ok value') (wf : result.WellFormed)
    (writable : result.readOnly = false) (deep : 2 ≤ limits.depth)
    (enough : 1 + 3 * (bound - s) ≤ limits.steps) :
    ∃ p, execute process limits source result = (.ok (), p) ∧ p.steps = 1 + 3 * (bound - s) ∧
      p.result.shape root = .mk (Text.trim name') value' [("i", some (toString s))]
        ((List.range' s (bound - s)).map numbered) ∧
      p.source.shape root = countingScript name value bound bound := by
  obtain ⟨count, item, assign, address, formula, nodes⟩ := counts.nodes
  let header : Header := ⟨name', value', [("i", some (toString s))]⟩
  have head : headerOf process source root = .ok header := nodes.headerOf_root counts named valued
  have solid' : Text.trim header.name ≠ "" := solid
  obtain ⟨result', prepared, opened, bare⟩ := prepare_spec wf writable solid' fun a ha =>
    (headerOf_attributes counts.wellFormed head a ha).1
  let start : Progress := ⟨source, result', 0⟩
  have ticked : Counts name value bound loop s start.tick.source := counts
  have room : 0 + 2 ≤ limits.depth := deep
  obtain ⟨_, p, rounds, steps, ended, appended⟩ :=
    ticked.rounds process le small opened room enough
  obtain ⟨d, live, own, -⟩ := nodes.loop
  have control : Control.ofName? d.name = some .repeatWhile := by
    rw [own]
    decide
  have within : start.steps + 1 ≤ limits.steps := by
    rw [show start.steps = 0 from rfl]
    omega
  have visits : Runs process limits 0 (.visits none [loop] root) start _ (.ok none) p :=
    .next (.control within live control (.loop rounds)) .visited
  rw [← counts.loops] at visits
  have whole : Executes process limits source result _ (.ok ()) p :=
    .run head prepared (.block (Nat.zero_le _) visits)
  refine ⟨p, whole.execute_eq, steps, ?_, ended.shape⟩
  rw [appended.shape, show start.tick.result.shape root = _ from bare]
  rfl

end

/-- The loop of a counting script is the only section of its root. -/
lemma exists_counts {conf : Configuration} (wf : conf.WellFormed) (writable : conf.readOnly = false)
    {name : String} {value : Option String} {bound k : Nat}
    (script : conf.shape root = countingScript name value k bound) :
    ∃ loop, Counts name value bound loop k conf := by
  obtain ⟨d, live, -⟩ := wf.root
  have shape := script
  rw [shape_eq wf live] at shape
  injection shape with _ _ _ children
  obtain ⟨loop, listed, -⟩ := List.map_eq_singleton_iff.1 children
  exact ⟨loop, wf, writable, script, (childrenOf_eq live).trans listed⟩

/-- A counting loop runs exactly: from `s` up to the bound, it adds a section for each number on the
way, in order, and leaves the counter of the script at the bound. It takes a step for the loop and
three for each number, and with fewer steps it ends with a timeout. -/
theorem execute_counting (process : Host) {limits : Limits} {source result : Configuration}
    (hs : Reachable source) (hr : Reachable result) (writable : source.readOnly = false)
    (writable' : result.readOnly = false) {name name' : String} {value value' : Option String}
    {s bound : Nat} (le : s ≤ bound) (small : bound ≤ 2 ^ 53)
    (script : source.shape root = countingScript name value s bound)
    (named : source.evaluate process (some root) name = .ok name') (solid : Text.trim name' ≠ "")
    (valued : source.value? process root = .ok value') (deep : 2 ≤ limits.depth) :
    (1 + 3 * (bound - s) ≤ limits.steps →
      ∃ p, execute process limits source result = (.ok (), p) ∧
        p.steps = 1 + 3 * (bound - s) ∧
        p.result.shape root = .mk (Text.trim name') value' [("i", some (toString s))]
          ((List.range' s (bound - s)).map numbered) ∧
        p.source.shape root = countingScript name value bound bound) ∧
      (limits.steps < 1 + 3 * (bound - s) →
        (execute process limits source result).1 =
          .error (.fails (.scriptTimeout (limits.steps + 1)))) := by
  obtain ⟨loop, counts⟩ := exists_counts hs.wellFormed writable script
  refine ⟨counts.execute le small named solid valued hr.wellFormed writable' deep, fun few => ?_⟩
  -- A run that has the steps that it takes is curtailed.
  let enough : Limits := ⟨1 + 3 * (bound - s), limits.depth⟩
  have deep' : 2 ≤ enough.depth := deep
  obtain ⟨p, run, steps, -⟩ := counts.execute le small named solid valued hr.wellFormed writable'
    deep' (Nat.le_refl _)
  have whole : ¬ CutShort (execute process enough source result).1 := by
    rw [run]
    exact not_cutShort_ok ()
  have shallow : enough.depth ≤ limits.depth := Nat.le_refl _
  refine (execute_curtail shallow whole).2 ?_
  rw [run, steps]
  exact few

/-- The last two numbers below the greatest bound, with the seven steps that they take and with
six. -/
theorem execute_counting_last :
    let source := (withRoot "list").operateAll
      [(.bare, .addAttribute 0 "i" (some "9007199254740990")),
        (.bare, .addSection 0 "_loop" (some "$(/$i)<9007199254740992")),
        (.bare, .addSection 2 "section_$(/$i)" none), (.bare, .addSection 2 "_set" none),
        (.bare, .addAttribute 4 "path" (some "/$i")),
        (.bare, .addAttribute 4 "to" (some "$(/$i)+1"))]
    (∃ p, execute .bare ⟨7, 2⟩ source empty = (.ok (), p) ∧ p.steps = 7 ∧
      p.result.shape root = .mk "list" none [("i", some "9007199254740990")]
        [.mk "section_9007199254740990" none [] [], .mk "section_9007199254740991" none [] []] ∧
      (p.source.shape root).attributes = [("i", some "9007199254740992")]) ∧
      (execute .bare ⟨6, 2⟩ source empty).1 = .error (.fails (.scriptTimeout 7)) := by
  intro source
  have hs : Reachable source :=
    (Reachable.withRoot "list").operateAll _ (by simp [Operation.others])
  have hr : Reachable empty := .withRoot defaultRootName
  have script : source.shape root =
      countingScript "list" none 9007199254740990 9007199254740992 := by rfl
  have named : source.evaluate .bare (some root) "list" = .ok "list" := by decide +kernel
  have solid : Text.trim "list" ≠ "" := by decide
  have valued : source.value? .bare root = .ok none := by decide +kernel
  have deep (steps : Nat) : 2 ≤ (Limits.mk steps 2).depth := Nat.le_refl 2
  have runs (steps : Nat) := execute_counting .bare hs hr rfl rfl (by decide) (by decide) script
    named solid valued (deep steps)
  obtain ⟨p, run, steps, result, script'⟩ := (runs 7).1 (by decide)
  refine ⟨⟨p, run, steps, result, ?_⟩, (runs 6).2 (by decide)⟩
  rw [script']
  rfl

end Script

end ConfTree
