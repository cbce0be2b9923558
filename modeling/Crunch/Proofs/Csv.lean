import Crunch.Csv

/-!
# Crunch.Proofs.Csv

Splitting a line undoes joining its fields.

* `Dialect.splitFrom_plain`, `Dialect.splitFrom_doubled`: a field is read off the front of a line, as it
  stands or out of its quotes.
* `Dialect.splitFrom_written`: so is a field as `join` writes it, whatever it holds.
* `Dialect.rewritten?`: the line that a line becomes when its fields are joined again.
* `Dialect.split_join`: the fields of a joined line are those that were joined. So the rewritten line
  has the same fields, and rewriting it once more changes nothing.
-/

namespace Crunch
namespace Csv
namespace Dialect

variable {d : Dialect} {field rest : List Char} {c : Char}

/-! ## One character -/

theorem splitFrom_char (acc : List Char) (hs : c ≠ d.separator) (hq : c ≠ d.quote) :
    d.splitFrom acc false (c :: rest) = d.splitFrom (c :: acc) false rest := by
  rw [splitFrom.eq_def]
  simp [hs, hq]

theorem splitFrom_separator (acc : List Char) (h : d.separator ≠ d.quote) :
    d.splitFrom acc false (d.separator :: rest) = (d.splitFrom [] false rest).map (acc.reverse :: ·) := by
  rw [splitFrom.eq_def]
  simp [h]

theorem splitFrom_opening : d.splitFrom [] false (d.quote :: rest) = d.splitFrom [] true rest := by
  rw [splitFrom.eq_def]
  simp

theorem splitFrom_quoted (acc : List Char) (hq : c ≠ d.quote) :
    d.splitFrom acc true (c :: rest) = d.splitFrom (c :: acc) true rest := by
  rw [splitFrom.eq_def]
  simp [hq]

theorem splitFrom_quote_quote (acc : List Char) :
    d.splitFrom acc true (d.quote :: d.quote :: rest) = d.splitFrom (d.quote :: acc) true rest := by
  rw [splitFrom.eq_def]
  simp

theorem splitFrom_closing (acc : List Char) (h : rest.head? ≠ some d.quote) :
    d.splitFrom acc true (d.quote :: rest) = d.splitFrom acc false rest := by
  rw [splitFrom.eq_def]
  cases rest with
  | nil => simp [splitFrom]
  | cons c rest =>
    have hc : c ≠ d.quote := fun he => h (congrArg some he)
    simp [hc]

/-! ## One field -/

/-- Characters that mean nothing are read as they stand. -/
theorem splitFrom_plain (acc : List Char) (h : ∀ c ∈ field, c ≠ d.separator ∧ c ≠ d.quote) :
    d.splitFrom acc false (field ++ rest) = d.splitFrom (field.reverse ++ acc) false rest := by
  induction field generalizing acc with
  | nil => rfl
  | cons c field ih =>
    obtain ⟨⟨hs, hq⟩, hfield⟩ := List.forall_mem_cons.mp h
    rw [List.cons_append, splitFrom_char acc hs hq, ih (c :: acc) hfield, List.reverse_cons, List.append_assoc,
      List.singleton_append]

/-- A doubled quote stands for one, and the first single one ends the field. -/
theorem splitFrom_doubled (acc : List Char) (h : rest.head? ≠ some d.quote) :
    d.splitFrom acc true (field.flatMap (fun c => if c = d.quote then [c, c] else [c]) ++ d.quote :: rest) =
      d.splitFrom (field.reverse ++ acc) false rest := by
  induction field generalizing acc with
  | nil => exact splitFrom_closing acc h
  | cons c field ih =>
    rw [List.reverse_cons, List.append_assoc, List.singleton_append, ← ih (c :: acc), List.flatMap_cons,
      List.append_assoc]
    by_cases hc : c = d.quote
    · rw [if_pos hc, hc]
      exact splitFrom_quote_quote acc
    · rw [if_neg hc]
      exact splitFrom_quoted acc hc

theorem needsQuotes_eq_false (h : d.needsQuotes field = false) : ∀ c ∈ field, c ≠ d.separator ∧ c ≠ d.quote := by
  intro c hc
  have hany := List.any_eq_false.mp h c hc
  simp only [Bool.or_eq_true, beq_iff_eq, not_or] at hany
  exact ⟨hany.1.1.1, hany.1.1.2⟩

/-- A written field is read off the front of a line. -/
theorem splitFrom_written (h : rest.head? ≠ some d.quote) :
    d.splitFrom [] false (d.written field ++ rest) = d.splitFrom field.reverse false rest := by
  unfold written
  split
  · rw [List.cons_append, List.cons_append, splitFrom_opening, List.append_assoc, List.singleton_append,
      splitFrom_doubled [] h, List.append_nil]
  · rename_i hq
    rw [splitFrom_plain [] (needsQuotes_eq_false (Bool.eq_false_iff.mpr hq)), List.append_nil]

/-! ## Lines -/

theorem split_of_join (h : d.separator ≠ d.quote) {fields : List (List Char)} (hne : fields ≠ []) :
    d.split (d.join fields) = some fields := by
  unfold split
  induction fields with
  | nil => exact absurd rfl hne
  | cons field fields ih =>
    cases fields with
    | nil =>
      rw [join, ← List.append_nil (d.written field), splitFrom_written (by simp), splitFrom,
        if_neg Bool.false_ne_true, List.reverse_reverse]
    | cons next fields =>
      have hhead : (d.separator :: d.join (next :: fields)).head? ≠ some d.quote := fun he => h (Option.some.inj he)
      rw [join, splitFrom_written hhead, splitFrom_separator _ h, ih (List.cons_ne_nil _ _), List.reverse_reverse]
      · rfl
      · exact List.cons_ne_nil _ _

/-- A line that is read has a field, which may be empty. -/
theorem ne_nil_of_splitFrom {acc line : List Char} {inside : Bool} {fields : List (List Char)}
    (h : d.splitFrom acc inside line = some fields) : fields ≠ [] := by
  fun_induction splitFrom d acc inside line generalizing fields with
  | case1 => cases h
  | case2 =>
    cases h
    exact List.cons_ne_nil _ _
  | case4 =>
    cases h
    exact List.cons_ne_nil _ _
  | case8 =>
    obtain ⟨_, -, rfl⟩ := Option.map_eq_some_iff.mp h
    exact List.cons_ne_nil _ _
  | _ =>
    rename_i ih
    exact ih h

/-- The line of the fields of a line. -/
def rewritten? (d : Dialect) (line : List Char) : Option (List Char) := (d.split line).map d.join

/-- Splitting undoes joining. So a line and what it is rewritten to have the same fields, and what it is
rewritten to stays as it is. -/
theorem split_join (d : Dialect) (h : d.separator ≠ d.quote) :
    (∀ fields, fields ≠ [] → d.split (d.join fields) = some fields) ∧
      (∀ line fields, d.split line = some fields → d.split (d.join fields) = d.split line) ∧
        ∀ line line', d.rewritten? line = some line' → d.split line' = d.split line ∧ d.rewritten? line' = some line' := by
  have hline : ∀ line fields, d.split line = some fields → d.split (d.join fields) = d.split line := by
    intro line fields hs
    rw [hs]
    exact split_of_join h (ne_nil_of_splitFrom hs)
  refine ⟨fun fields => split_of_join h, hline, fun line line' hl => ?_⟩
  obtain ⟨fields, hs, rfl⟩ := Option.map_eq_some_iff.mp hl
  refine ⟨hline line fields hs, ?_⟩
  rw [rewritten?, hline line fields hs, hs]
  rfl

/-- Fields with a separator, a quote and a line break, and an empty one. -/
theorem split_join_quoted :
    ((⟨';', '|'⟩ : Dialect).separator ≠ (⟨';', '|'⟩ : Dialect).quote) ∧
      (⟨';', '|'⟩ : Dialect).split "|a;b|;;|x||y\n|".toList = some ["a;b".toList, [], "x|y\n".toList] := by
  have hd : (⟨';', '|'⟩ : Dialect).separator ≠ (⟨';', '|'⟩ : Dialect).quote := by decide
  exact ⟨hd, (split_join ⟨';', '|'⟩ hd).1 ["a;b".toList, [], "x|y\n".toList] (by decide)⟩

end Dialect
end Csv
end Crunch
