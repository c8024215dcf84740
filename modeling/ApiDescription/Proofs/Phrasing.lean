import ApiDescription.Model.Conditions
import ApiDescription.Proofs.RoundTrip

/-!
# Predicates at an access path

A constraint speaks about `self`.  For a value at the end of an access path it is phrased with the
path in place of `self`, and within a quantifier for every container on the way.  The definitions
here say what the phrase is, going down the path from its root.

Renaming `self` to the text of a path and reading what is printed puts the path itself in the place
of `self`.  That is the substitution of this module, and it composes.
-/

namespace ApiDescription

open List Text Lexicon

/-! ## Substitution -/

namespace Expr

variable {new : Expr} {written : String}

mutual

/-- Put a tree in the place of a name, wherever it is used as one. -/
@[grind =] def subst (old : String) (new : Expr) : Expr → Expr
  | name id use => if id = old then new else name id use
  | number value => number value
  | text value => text value
  | list items use => list (substAll old new items) use
  | tuple items use => tuple (substAll old new items) use
  | dict keys values => dict (substAll old new keys) (substAll old new values)
  | spread => spread
  | access value label use => access (subst old new value) label use
  | call function arguments keywords =>
    call (subst old new function) (substAll old new arguments) (substAll old new keywords)
  | compare first operators operands =>
    compare (subst old new first) operators (substAll old new operands)
  | connect connective operands => connect connective (substAll old new operands)
  | binary operator left right => binary operator (subst old new left) (subst old new right)
  | unary operator operand => unary operator (subst old new operand)
  | other form children => other form (substAll old new children)

/-- Put a tree in the place of a name in every tree of a list. -/
def substAll (old : String) (new : Expr) : List Expr → List Expr
  | [] => []
  | first :: rest => subst old new first :: substAll old new rest

end

mutual

@[grind =] def mentions (id : String) : Expr → Bool
  | name used _ => used == id
  | number _ | text _ | spread => false
  | list items _ | tuple items _ => mentionsAny id items
  | dict keys values => mentionsAny id keys || mentionsAny id values
  | access value _ _ => mentions id value
  | call function arguments keywords =>
    mentions id function || mentionsAny id arguments || mentionsAny id keywords
  | compare first _ operands => mentions id first || mentionsAny id operands
  | connect _ operands => mentionsAny id operands
  | binary _ left right => mentions id left || mentions id right
  | unary _ operand => mentions id operand
  | other _ children => mentionsAny id children

/-- Whether a name is used in any of several trees. -/
def mentionsAny (id : String) : List Expr → Bool
  | [] => false
  | first :: rest => mentions id first || mentionsAny id rest

end

section

variable {old : String}

variable {trees : List Expr}

theorem map_eq_self {change : Expr → Expr} :
    trees.map change = trees ↔ ∀ tree ∈ trees, change tree = tree := by
  simpa using map_inj_left (f := change) (g := id) (l := trees)

@[simp] theorem substAll_eq_map (trees : List Expr) :
    substAll old new trees = trees.map (subst old new) := by
  induction trees with
  | nil => rfl
  | cons first rest ih => rw [substAll, ih, map_cons]

@[simp] theorem renameAll_eq_map (trees : List Expr) :
    renameAll old written trees = trees.map (rename old written) := by
  induction trees with
  | nil => rfl
  | cons first rest ih => rw [renameAll, ih, map_cons]

@[simp] theorem mentionsAny_eq_any (id : String) (trees : List Expr) :
    mentionsAny id trees = trees.any (mentions id) := by
  induction trees with
  | nil => rfl
  | cons first rest ih => rw [mentionsAny, ih, any_cons]

theorem subst_subst (first second tree : Expr) :
    subst old second (subst old first tree) = subst old (subst old second first) tree := by
  induction tree using induction_on_children with
  | step tree ih =>
    cases tree with
    | name id use =>
      rw [subst, subst]
      split
      · rfl
      · next different => rw [subst, if_neg different]
    | _ => simp_all [subst, children]

theorem subst_of_not_mentions (tree : Expr) (unused : mentions old tree = false) :
    subst old new tree = tree := by
  induction tree using induction_on_children with
  | step tree ih =>
    cases tree with
    | name id use =>
      rw [mentions, beq_eq_false_iff_ne] at unused
      rw [subst, if_neg unused]
    | _ => simp_all [subst, children, mentions, map_eq_self]

theorem mentions_subst (absent : mentions old new = false) (tree : Expr) :
    mentions old (subst old new tree) = false := by
  induction tree using induction_on_children with
  | step tree ih =>
    cases tree with
    | name id use =>
      rw [subst]
      split
      · exact absent
      · next different => rw [mentions, beq_eq_false_iff_ne]; exact different
    | _ => simp_all [subst, children, mentions]

theorem renderAll_map_congr {left right : Expr → Expr}
    (same : ∀ tree ∈ trees, (left tree).render? = (right tree).render?) :
    renderAll (trees.map left) = renderAll (trees.map right) ∧
    visitAll (trees.map left) = visitAll (trees.map right) := by
  induction trees with
  | nil => exact ⟨rfl, rfl⟩
  | cons first rest ih =>
    rw [forall_mem_cons] at same
    obtain ⟨printed, visited⟩ := ih same.2
    simp only [map_cons, renderAll, visitAll, same.1, printed, visited, and_self]

/-- A tree is printed in the place of a name like its text. -/
theorem render?_subst (rendered : new.render? = .ok (some written)) (tree : Expr) :
    (subst old new tree).render? = (tree.rename old written).render? := by
  induction tree using induction_on_children with
  | step tree ih =>
    have printed {trees : List Expr} (among : ∀ child ∈ trees, child ∈ tree.children) :=
      renderAll_map_congr fun child member => ih child (among child member)
    cases tree with
    | name id use =>
      rw [subst, rename]
      split
      · rw [rendered, render?]
      · rfl
    | _ => simp_all [subst, rename, render?, children]

theorem strength_subst (primary : new.strength = primaryStrength) (tree : Expr) :
    (subst old new tree).strength = tree.strength := by
  cases tree with
  | name id use =>
    rw [subst]
    split
    · exact primary
    · rfl
  | _ => rfl

theorem isDotted_subst (dotted : new.isDotted = true) (tree : Expr) :
    (subst old new tree).isDotted = tree.isDotted := by
  cases tree with
  | name id use =>
    rw [subst]
    split
    · exact dotted
    · rfl
  | number value => rw [subst]
  | _ => rfl

theorem bare_subst {lexicon : Lexicon} (bareNew : new.Bare lexicon) (dotted : new.isDotted = true)
    (tree : Expr) (bare : tree.Bare lexicon) : (subst old new tree).Bare lexicon := by
  have primary := strength_of_isDotted dotted
  induction tree using induction_on_children with
  | step tree ih =>
    cases tree with
    | name id use =>
      rw [subst]
      split
      · exact bareNew
      · exact bare
    | _ => simp_all [subst, Bare, bareAll_iff, children, strength_subst, isDotted_subst]

/-- A path has no brackets, so none are added with it. -/
theorem nesting_subst (flat : new.nesting = 0) (tree : Expr) :
    (subst old new tree).nesting = tree.nesting := by
  induction tree using induction_on_children with
  | step tree ih =>
    have deep {trees : List Expr} (among : ∀ child ∈ trees, child ∈ tree.children) :=
      nestingAll_map fun child member => ih child (among child member)
    cases tree with
    | name id use =>
      rw [subst]
      split
      · rw [flat, nesting]
      · rfl
    | _ => simp_all [subst, nesting, children]

end

end Expr

/-! ## Access paths -/

/-- An access path: a name, and the labels of the fields that are crossed from there. -/
structure Path where
  root : String
  labels : List String

namespace Path

variable {path : Path}

def field (path : Path) (label : String) : Path :=
  { path with labels := path.labels ++ [label] }

/-- The variable that runs over the items of the container at a path.  A path that ends in `_item`
gets an underscore in front, a longer path from `_item` is made one name, and all others share
`_item`. -/
def item (path : Path) : Path :=
  if endsWith (path.labels.getLastD path.root) "_item" then
    { path with root := "_" ++ path.root }
  else if path.root = "_item" ∧ path.labels ≠ [] then
    ⟨"_" ++ "_".intercalate (path.root :: path.labels), []⟩
  else ⟨"_item", []⟩

def tree (path : Path) : Expr :=
  path.labels.foldl (fun value label => .access value label .load) (.name path.root .load)

def text (path : Path) : String :=
  path.labels.foldl (fun sofar label => sofar ++ "." ++ label) path.root

/-- A path of ASCII names that are not reserved. -/
structure Named (path : Path) : Prop where
  root : ascii.label path.root
  labels : ∀ label ∈ path.labels, ascii.label label

/-- A path of such names from a root other than `self`. -/
structure Legal (path : Path) : Prop extends path.Named where
  absolute : path.root ≠ "self"

theorem tree_field (path : Path) (label : String) :
    (path.field label).tree = .access path.tree label .load := by
  simp [field, tree]

theorem text_field (path : Path) (label : String) :
    (path.field label).text = path.text ++ "." ++ label := by
  simp [field, text]

theorem Legal.field (legal : path.Legal) {label : String} (isLabel : ascii.label label) :
    (path.field label).Legal := by
  refine ⟨⟨legal.root, ?_⟩, legal.absolute⟩
  intro other member
  rcases mem_append.mp member with earlier | last
  · exact legal.labels other earlier
  · rw [mem_singleton.mp last]
    exact isLabel

variable {value : Expr} {name : String}

theorem render?_foldl_access (labels : List String) {written : String}
    (rendered : value.render? = .ok (some written)) :
    (labels.foldl (fun value label => Expr.access value label .load) value).render? =
      .ok (some (labels.foldl (fun sofar label => sofar ++ "." ++ label) written)) := by
  induction labels generalizing value written with
  | nil => exact rendered
  | cons label labels ih =>
    apply ih
    rw [Expr.render?, rendered]
    rfl

theorem render?_tree (path : Path) : path.tree.render? = .ok (some path.text) :=
  render?_foldl_access path.labels rfl

theorem bare_foldl_access {lexicon : Lexicon} {labels : List String}
    (legal : ∀ label ∈ labels, lexicon.label label) (bare : value.Bare lexicon)
    (dotted : value.isDotted = true) :
    (labels.foldl (fun value label => Expr.access value label .load) value).Bare lexicon ∧
      (labels.foldl (fun value label => Expr.access value label .load) value).isDotted = true := by
  induction labels generalizing value with
  | nil => exact ⟨bare, dotted⟩
  | cons label labels ih =>
    apply ih
    · exact fun other member => legal other (mem_cons_of_mem label member)
    · exact ⟨rfl, legal label mem_cons_self, bare, dotted⟩
    · rfl

theorem Named.bare_tree (named : path.Named) :
    path.tree.Bare .readable ∧ path.tree.isDotted = true := by
  apply bare_foldl_access
  · exact fun label member => readable_label (named.labels label member)
  · exact ⟨rfl, readable_name (.inl named.root)⟩
  · rfl

theorem mentions_foldl_access (labels : List String) (id : String) (value : Expr) :
    Expr.mentions id (labels.foldl (fun value label => Expr.access value label .load) value) =
      Expr.mentions id value := by
  induction labels generalizing value with
  | nil => rfl
  | cons label labels ih => rw [foldl_cons, ih, Expr.mentions]

theorem Legal.mentions_tree (legal : path.Legal) :
    Expr.mentions "self" path.tree = false := by
  rw [tree, mentions_foldl_access, Expr.mentions, beq_eq_false_iff_ne]
  exact legal.absolute

theorem nesting_tree (path : Path) : path.tree.nesting = 0 := by
  obtain ⟨root, labels⟩ := path
  suffices general : ∀ value : Expr, value.nesting = 0 →
      (labels.foldl (fun value label => Expr.access value label .load) value).nesting = 0 from
    general _ rfl
  induction labels with
  | nil => exact fun _ flat => flat
  | cons label labels ih => exact fun value flat => ih _ flat

/-! ## Variables over items -/

theorem point_not_mem (identifier : isAsciiIdentifier name) : '.' ∉ name.toList := by
  intro member
  rcases isAlphanum_of_isAsciiIdentifier identifier member with letter | same
  · exact absurd letter (by decide)
  · exact absurd same (by decide)

theorem toList_text (path : Path) :
    path.text.toList = path.root.toList ++ path.labels.flatMap fun label =>
      '.' :: label.toList := by
  obtain ⟨root, labels⟩ := path
  suffices general : ∀ sofar : String,
      (labels.foldl (fun sofar label => sofar ++ "." ++ label) sofar).toList =
        sofar.toList ++ labels.flatMap fun label => '.' :: label.toList from general root
  induction labels with
  | nil => simp
  | cons label labels ih =>
    intro sofar
    rw [foldl_cons, ih]
    simp

theorem isSuffix_append_point {ending before last : List Char} (plain : '.' ∉ ending) :
    ending <:+ before ++ '.' :: last ↔ ending <:+ last := by
  constructor
  · intro isEnding
    rcases suffix_or_suffix_of_suffix isEnding (suffix_append before ('.' :: last)) with
      inside | outside
    · rcases suffix_cons_iff.mp inside with same | later
      · exact (plain (same ▸ mem_cons_self)).elim
      · exact later
    · exact (plain (outside.mem mem_cons_self)).elim
  · intro isEnding
    exact isEnding.trans ((suffix_cons '.' last).trans (suffix_append before _))

theorem endsWith_text (path : Path) :
    endsWith path.text "_item" = endsWith (path.labels.getLastD path.root) "_item" := by
  rw [endsWith, endsWith, Bool.eq_iff_iff, isSuffixOf_iff_suffix,
    isSuffixOf_iff_suffix, toList_text]
  obtain ⟨root, labels⟩ := path
  rcases eq_nil_or_concat labels with rfl | ⟨others, last, rfl⟩
  · simp
  · rw [concat_eq_append, flatMap_append, ← append_assoc]
    simp only [flatMap_cons, flatMap_nil, append_nil, getLastD_concat]
    exact isSuffix_append_point (by decide)

theorem takeWhile_text (plain : '.' ∉ path.root.toList) :
    path.text.toList.takeWhile (· != '.') = path.root.toList := by
  have all : ∀ character ∈ path.root.toList, (character != '.') = true := by
    intro character member
    rw [bne_iff_ne]
    rintro rfl
    exact plain member
  rw [toList_text, takeWhile_append_of_pos all]
  cases path.labels with
  | nil => simp
  | cons label labels => simp

theorem startsWith_text (plain : '.' ∉ path.root.toList) :
    startsWith path.text "_item." = true ↔ path.root = "_item" ∧ path.labels ≠ [] := by
  rw [startsWith, isPrefixOf_iff_prefix]
  constructor
  · rintro ⟨rest, begins⟩
    constructor
    · have root := takeWhile_text plain
      rw [← begins] at root
      rw [← String.toList_inj, ← root]
      simp
    · intro none
      apply plain
      have text := toList_text path
      rw [none, flatMap_nil, append_nil] at text
      rw [← text, ← begins]
      simp
  · rintro ⟨root, crosses⟩
    rw [toList_text, root]
    cases labels : path.labels with
    | nil => exact (crosses labels).elim
    | cons label others =>
      exact ⟨label.toList ++ others.flatMap fun label => '.' :: label.toList, by simp⟩

theorem replaceFrom_point (characters : List Char) :
    replaceFrom ['.'] ['_'] 0 characters =
      characters.map fun character => if character = '.' then '_' else character := by
  induction characters with
  | nil => rfl
  | cons first rest ih =>
    by_cases point : first = '.'
    · simp [replaceFrom, point, ih]
    · simp [replaceFrom, point, Ne.symm point, ih]

theorem map_point_of_not_mem {characters : List Char} (plain : '.' ∉ characters) :
    characters.map (fun character => if character = '.' then '_' else character) = characters := by
  rw [map_congr_left, map_id]
  intro character member
  rw [if_neg]
  · rfl
  · rintro rfl
    exact plain member

theorem replaceAll_text (plainRoot : '.' ∉ path.root.toList)
    (plain : ∀ label ∈ path.labels, '.' ∉ label.toList) :
    replaceAll path.text "." "_" = "_".intercalate (path.root :: path.labels) := by
  rw [← String.toList_inj, Expr.toList_intercalate, replaceAll, if_neg (by decide),
    String.toList_ofList]
  change replaceFrom ['.'] ['_'] 0 path.text.toList = _
  rw [replaceFrom_point, toList_text, map_append, map_point_of_not_mem plainRoot, map_flatMap]
  congr 1
  apply flatMap_congr
  intro label member
  rw [map_cons, map_point_of_not_mem (plain label member)]
  rfl

theorem text_item (plainRoot : '.' ∉ path.root.toList)
    (plain : ∀ label ∈ path.labels, '.' ∉ label.toList) :
    path.item.text = itemVariable path.text := by
  unfold item itemVariable
  rw [endsWith_text]
  split
  · rw [← String.toList_inj, String.toList_append, toList_text, toList_text]
    simp
  · by_cases crosses : path.root = "_item" ∧ path.labels ≠ []
    · rw [if_pos crosses, if_pos ((startsWith_text plainRoot).mpr crosses),
        replaceAll_text plainRoot plain]
      rfl
    · rw [if_neg crosses, if_neg fun begins => crosses ((startsWith_text plainRoot).mp begins)]
      rfl

theorem Legal.text_item (legal : path.Legal) : path.item.text = itemVariable path.text :=
  Path.text_item (point_not_mem legal.root.1) fun label member =>
    point_not_mem (legal.labels label member).1

theorem label_of_underscore {rest : List Char} (begins : name.toList = '_' :: rest)
    (letters : ∀ character ∈ rest, character.isAlphanum ∨ character = '_') :
    ascii.label name ∧ name ≠ "self" := by
  have head : ∀ word ∈ "self" :: reservedWords, word.toList.head? ≠ some '_' := by decide
  have different : ∀ word ∈ "self" :: reservedWords, name ≠ word := by
    rintro word member rfl
    exact head _ member (by rw [begins]; rfl)
  refine ⟨⟨?_, fun reserved => different name (mem_cons_of_mem _ reserved) rfl⟩,
    different "self" mem_cons_self⟩
  rw [isAsciiIdentifier, begins]
  simp only [Bool.and_eq_true, Bool.or_eq_true, all_eq_true, beq_iff_eq]
  exact ⟨.inr trivial, letters⟩

theorem parts_item {part : Char → Prop}
    (letters : ∀ character, character.isAlphanum ∨ character = '_' → part character)
    (root : ∀ character ∈ path.root.toList, part character)
    (labels : ∀ label ∈ path.labels, ∀ character ∈ label.toList, part character) :
    (∃ rest, path.item.root.toList = '_' :: rest ∧ ∀ character ∈ rest, part character) ∧
      ∀ label ∈ path.item.labels, label ∈ path.labels := by
  unfold item
  split
  · exact ⟨⟨path.root.toList, by simp, root⟩, fun label isLabel => isLabel⟩
  · split
    · refine ⟨⟨("_".intercalate (path.root :: path.labels)).toList, by simp, ?_⟩, by simp⟩
      intro character member
      rw [Expr.toList_intercalate] at member
      rcases mem_append.mp member with inRoot | inLabels
      · exact root character inRoot
      · obtain ⟨label, isLabel, inLabel⟩ := mem_flatMap.mp inLabels
        rcases mem_cons.mp inLabel with rfl | later
        · exact letters '_' (.inr rfl)
        · exact labels label isLabel character later
    · have alphanumeric : ∀ character ∈ ['i', 't', 'e', 'm'], character.isAlphanum ∨
          character = '_' :=
        Lexer.forall_mem_of_all (by decide)
      exact ⟨⟨_, rfl, fun character member => letters character (alphanumeric character member)⟩, by
        simp⟩

theorem Legal.item (legal : path.Legal) : path.item.Legal := by
  obtain ⟨⟨rest, begins, parts⟩, labels⟩ := parts_item (fun _ letter => letter)
    (fun _ => isAlphanum_of_isAsciiIdentifier legal.root.1)
    fun label isLabel _ => isAlphanum_of_isAsciiIdentifier (legal.labels label isLabel).1
  obtain ⟨isLabel, notSelf⟩ := label_of_underscore begins parts
  exact ⟨⟨isLabel, fun label isItem => legal.labels label (labels label isItem)⟩, notSelf⟩

end Path

/-! ## Phrases -/

/-- A step from a value to its parts: to a field of a record, or to the items of a container. -/
inductive Step where
  | field (label : String)
  | item
  deriving DecidableEq, Repr

def Step.crossings : List Step → Nat
  | [] => 0
  | .field _ :: steps => crossings steps
  | .item :: steps => crossings steps + 1

/-- Whether all labels are ASCII names that are not reserved. -/
def Step.Legal (steps : List Step) : Prop :=
  ∀ label, .field label ∈ steps → ascii.label label

namespace Path

/-- A predicate on `self` phrased for what the steps lead to from a path: the path that is reached
takes the place of `self`, and every container on the way is quantified over. -/
def phrase (path : Path) : List Step → Expr → Expr
  | [], predicate => Expr.subst "self" path.tree predicate
  | .field label :: steps, predicate => (path.field label).phrase steps predicate
  | .item :: steps, predicate =>
    .call (.name "forall" .load) [path.item.tree, path.tree, path.item.phrase steps predicate] []

variable {path : Path} {steps : List Step}

theorem Legal.mentions_phrase (legal : path.Legal) (labels : Step.Legal steps) (predicate : Expr) :
    Expr.mentions "self" (path.phrase steps predicate) = false := by
  induction steps generalizing path with
  | nil => exact Expr.mentions_subst legal.mentions_tree predicate
  | cons step steps ih =>
    have others : Step.Legal steps := fun label member => labels label (.tail step member)
    cases step with
    | field label => exact ih (legal.field (labels label (.head steps))) others
    | item =>
      have body := ih legal.item others
      simp [phrase, Expr.mentions, Expr.mentionsAny, legal.mentions_tree, legal.item.mentions_tree,
        body]

theorem Legal.bare_phrase (legal : path.Legal) (labels : Step.Legal steps) {predicate : Expr}
    (bare : predicate.Bare .readable) : (path.phrase steps predicate).Bare .readable := by
  induction steps generalizing path with
  | nil =>
    obtain ⟨barePath, dotted⟩ := legal.bare_tree
    exact Expr.bare_subst barePath dotted predicate bare
  | cons step steps ih =>
    have others : Step.Legal steps := fun label member => labels label (.tail step member)
    cases step with
    | field label => exact ih (legal.field (labels label (.head steps))) others
    | item =>
      have quantifier : ascii.name "forall" := .inl (by decide)
      exact ⟨rfl, ⟨rfl, readable_name quantifier⟩, rfl, legal.item.bare_tree.1,
        legal.bare_tree.1, ih legal.item others, trivial⟩

/-- Every container on the way adds the brackets of its quantifier. -/
theorem nesting_phrase (path : Path) (steps : List Step) (predicate : Expr) :
    (path.phrase steps predicate).nesting = predicate.nesting + Step.crossings steps := by
  induction steps generalizing path with
  | nil => exact Expr.nesting_subst path.nesting_tree predicate
  | cons step steps ih =>
    cases step with
    | field label => exact ih (path.field label)
    | item =>
      have body := ih path.item
      simp [phrase, Expr.nesting, Expr.nestingAll, nesting_tree, Step.crossings, body]
      omega

end Path

end ApiDescription
