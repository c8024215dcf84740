import ApiDescription.Proofs.Phrasing

/-!
# Changing the subject of a predicate

The subject of a predicate is changed in its tree, and the changed tree is printed.  What is printed
is read as the changed tree if the predicate needs no parentheses, since then neither does the tree
with another name in it.  Grouping that needs parentheses is not written and gets lost: a text that
a tree without parentheses has too is read as that tree.
-/

namespace ApiDescription.Expr

variable {old new : String}

theorem rename_eq_subst (tree : Expr) : rename old new tree = subst old (name new .load) tree := by
  induction tree using induction_on_children with
  | step tree ih => cases tree <;> simp_all [rename, subst, children]

theorem bare_rename {tree : Expr} (isName : Lexicon.readable.name new)
    (bare : tree.Bare .readable) : (rename old new tree).Bare .readable := by
  have bareName : (name new .load).Bare .readable := ⟨rfl, isName⟩
  rw [rename_eq_subst]
  exact bare_subst bareName rfl tree bare

theorem nesting_rename (tree : Expr) : (rename old new tree).nesting = tree.nesting := by
  rw [rename_eq_subst]
  exact nesting_subst rfl tree

/-- Printed trees that need no parentheses take precedence: the text of any tree that has the text
of one of them is read as the latter, so it is read as the former only if both are the same. -/
theorem parse_iff_bare {tree plain : Expr} {text : String}
    (rendered : tree.render? = .ok (some text)) (bare : plain.Bare .readable)
    (shallow : plain.nesting ≤ Lexer.maxNesting) (written : plain.render? = .ok (some text)) :
    parse text = .ok plain ∧
      (parse text = .ok tree ↔ tree.Bare .readable ∧ tree.nesting ≤ Lexer.maxNesting) := by
  have asPlain := parse_of_render? bare shallow written
  refine ⟨asPlain, fun asTree => ?_, fun ⟨bareTree, shallowTree⟩ =>
    parse_of_render? bareTree shallowTree rendered⟩
  cases asPlain.symm.trans asTree
  exact ⟨bare, shallow⟩

/-- When the subject of a predicate that needs no parentheses is changed, the result is read as the
tree of the predicate with one name in the place of the other, and nothing else changed.  Of any
predicate, a result that some tree without parentheses has as its text is read as that tree: it is
the tree of the predicate with the name replaced exactly if that tree needs no parentheses. -/
theorem changeSubject_iff_bare {source : String} {tree : Expr} (parsed : parse source = .ok tree)
    (isName : Lexicon.readable.name new) :
    (tree.Bare .readable → tree.nesting ≤ Lexer.maxNesting →
      ∃ result, changeSubject source old new = .ok (some result) ∧
        parse result = .ok (tree.rename old new)) ∧
    ∀ result plain, changeSubject source old new = .ok (some result) →
      plain.Bare .readable → plain.nesting ≤ Lexer.maxNesting →
      plain.render? = .ok (some result) →
      parse result = .ok plain ∧
        (parse result = .ok (tree.rename old new) ↔
          (tree.rename old new).Bare .readable ∧ tree.nesting ≤ Lexer.maxNesting) := by
  have changes : changeSubject source old new = (tree.rename old new).render? := by
    rw [changeSubject, parsed]
    rfl
  rw [changes]
  constructor
  · intro bare shallow
    exact parse_of_bare (bare_rename isName bare) ((nesting_rename tree).trans_le shallow)
  · intro result plain changed bare shallow written
    have sameNesting : (tree.rename old new).nesting = tree.nesting := nesting_rename tree
    rw [← sameNesting]
    exact parse_iff_bare changed bare shallow written

/-- `self.total - 1 in [self, 'none'] and not limit(self)` -/
def totalCheck : Expr :=
  .connect .conjunction
    [.compare (.binary .subtract (.access (.name "self" .load) "total" .load) (.number (.int 1)))
      [.member] [.list [.name "self" .load, .text "none"] .load],
     .unary .negation (.call (.name "limit" .load) [.name "self" .load] [])]

theorem changeSubject_totalCheck :
    parse "self.total - 1 in [self, 'none'] and not limit(self)" = .ok totalCheck ∧
      totalCheck.Bare .readable ∧ totalCheck.nesting ≤ Lexer.maxNesting ∧
      ∃ result,
        changeSubject "self.total - 1 in [self, 'none'] and not limit(self)" "self" "order" =
          .ok (some result) ∧
        parse result = .ok (totalCheck.rename "self" "order") := by
  have bare : totalCheck.Bare .readable :=
    Bare.readable (by decide)
  have shallow : totalCheck.nesting ≤ Lexer.maxNesting := by decide
  have parsed : parse "self.total - 1 in [self, 'none'] and not limit(self)" = .ok totalCheck := by
    obtain ⟨text, rendered, parsed⟩ := parse_of_bare bare shallow
    have written : totalCheck.render? =
        .ok (some "self.total - 1 in [self, 'none'] and not limit(self)") := rfl
    cases written.symm.trans rendered
    exact parsed
  exact ⟨parsed, bare, shallow,
    (changeSubject_iff_bare parsed (Lexicon.readable_name (by decide))).1 bare shallow⟩

/-- Grouping that needs parentheses is lost. -/
theorem grouping_lost :
    changeSubject "(a + b) * c" "a" "x" = .ok (some "x + b * c") ∧
      parse "(a + b) * c" = .ok
        (.binary .multiply (.binary .add (.name "a" .load) (.name "b" .load)) (.name "c" .load)) ∧
      parse "x + b * c" = .ok
        (.binary .add (.name "x" .load)
          (.binary .multiply (.name "b" .load) (.name "c" .load))) := by
  have tokens : Lexer.tokens "(a + b) * c" =
      some [.mark "(", .word "a", .mark "+", .word "b", .mark ")", .mark "*", .word "c"] := rfl
  have parsed : parse "(a + b) * c" = .ok
      (.binary .multiply (.binary .add (.name "a" .load) (.name "b" .load)) (.name "c" .load)) := by
    rw [parse, tokens]
    rfl
  have tokensAfter : Lexer.tokens "x + b * c" =
      some [.word "x", .mark "+", .word "b", .mark "*", .word "c"] := rfl
  refine ⟨?_, parsed, ?_⟩
  · rw [changeSubject, parsed]
    rfl
  · rw [parse, tokensAfter]
    rfl

end ApiDescription.Expr
