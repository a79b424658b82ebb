import SchemaDialects.Proofs.Conversion.Counting
import SchemaDialects.Proofs.Definition.KeptNames

/-!
# Quoted names of the output

Each definition is a piece of the statement with its quotes changed, and the
output has its names. Main statement: where no part of a name is taken out, a
definition that is kept loses no name but that of a unique key, and none is
changed but the one that the type of the definition is read in.
-/

namespace SchemaDialects.Conversion

open Text Definition

/-- The definition `line` is the piece `source` of a line of the statement, with
its quotes changed. -/
structure IsSource (d : Direction) (sql source line : Text) : Prop where
  piece : source <:+: unclaused d (Script.body sql)
  one_line : '\n' ∉ source
  quotes : ∃ q, line = requoteAt (oldQuote d) (newQuote d) q source

/-- No name of the line has a quote of any kind in it, and none goes on behind the line. -/
structure HasPlainNames (d : Direction) (source : Text) : Prop where
  no_quote : ∀ n ∈ quotedNames d.source source, ∀ c ∈ ['\'', '"', '`'], c ∉ n
  closed : (NameReading.start.run d.source source).part.isName = false

/-! ## Pieces of a statement -/

theorem isPrefix_of_splitOn {sep : Char} {s p : Text} {ps : List Text} (h : splitOn sep s = p :: ps) :
    p <+: s := by
  induction s generalizing p ps with
  | nil =>
    obtain ⟨rfl, -⟩ := List.cons.inj h
    exact List.prefix_refl _
  | cons c s ih =>
    rw [splitOn] at h
    split at h
    · obtain ⟨rfl, -⟩ := List.cons.inj h
      exact List.nil_prefix
    · obtain ⟨x, xs, hx⟩ := List.exists_cons_of_ne_nil (splitOn_ne_nil sep s)
      rw [hx] at h
      obtain ⟨rfl, -⟩ := List.cons.inj h
      exact (List.prefix_cons_inj c).2 (ih hx)

theorem infix_of_mem_splitOn {sep : Char} {s p : Text} (h : p ∈ splitOn sep s) : p <:+: s := by
  induction s generalizing p with
  | nil =>
    obtain rfl := List.mem_singleton.1 h
    exact List.infix_refl _
  | cons c s ih =>
    obtain ⟨x, xs, hx⟩ := List.exists_cons_of_ne_nil (splitOn_ne_nil sep (c :: s))
    rw [hx] at h
    rcases List.mem_cons.1 h with rfl | h
    · exact (isPrefix_of_splitOn hx).isInfix
    · refine List.infix_cons (ih ?_)
      rw [splitOn] at hx
      split at hx
      · rwa [(List.cons.inj hx).2]
      · obtain ⟨y, ys, hy⟩ := List.exists_cons_of_ne_nil (splitOn_ne_nil sep s)
        rw [hy] at hx ⊢
        rw [← (List.cons.inj hx).2] at h
        exact List.mem_cons_of_mem y h

theorem infix_of_mem_contentLines {s line : Text} (h : line ∈ contentLines s) : line <:+: s := by
  rw [contentLines_eq] at h
  obtain ⟨l, hl, rfl⟩ := List.mem_map.1 (List.mem_filter.1 h).1
  have htrim : trim l <:+: l :=
    (isPrefix_dropEndWhile _ _).isInfix.trans (List.dropWhile_suffix _).isInfix
  exact (isPrefix_withoutComment _).isInfix.trans (htrim.trans (infix_of_mem_splitOn hl))

theorem infix_of_mem_definitions {d : Direction} {sql line : Text}
    (h : line ∈ (layout d sql).definitions) : line <:+: requoted d (Script.body sql) := by
  obtain ⟨l, hl, rfl⟩ := List.mem_map.1 h
  have hmem := List.mem_of_mem_tail ((List.takeWhile_prefix _).subset hl)
  exact ((isPrefix_dropEndWhile _ _).trans (isPrefix_dropEndWhile _ _)).isInfix.trans
    (infix_of_mem_contentLines hmem)

theorem exists_of_infix_requoteAt {old new : Char} {q : Quoting} {s line : Text}
    (h : line <:+: requoteAt old new q s) :
    ∃ source q', source <:+: s ∧ line = requoteAt old new q' source := by
  obtain ⟨p, t, h⟩ := h
  have hlen : ∀ q s, (requoteAt old new q s).length = s.length := fun q s =>
    length_requoteFrom old new q.inString q.inName s
  have hs : s = s.take p.length ++ ((s.drop p.length).take line.length
      ++ (s.drop p.length).drop line.length) := by
    rw [List.take_append_drop, List.take_append_drop]
  have htotal := congrArg List.length h
  simp only [List.length_append, hlen] at htotal
  rw [hs, requoteAt_append, requoteAt_append, List.append_assoc] at h
  obtain ⟨-, h⟩ := List.append_inj h (by rw [hlen, List.length_take]; omega)
  obtain ⟨h, -⟩ := List.append_inj h (by rw [hlen, List.length_take, List.length_drop]; omega)
  refine ⟨_, _, ?_, h⟩
  exact (List.take_prefix _ _).isInfix.trans (List.drop_suffix _ _).isInfix

theorem exists_isSource {d : Direction} {sql line : Text} (h : line ∈ (layout d sql).definitions) :
    ∃ source, IsSource d sql source line := by
  have hinfix := infix_of_mem_definitions h
  rw [requoted_eq] at hinfix
  obtain ⟨source, q, hsource, rfl⟩ := exists_of_infix_requoteAt hinfix
  refine ⟨source, hsource, fun hm => not_mem_definitions d sql h ?_, q, rfl⟩
  have hne := quotes_ne d (c := '\n') (by decide)
  have := count_requoteAt hne.1 hne.2 q source
  exact List.count_pos_iff.1 (this ▸ List.count_pos_iff.2 hm)

/-! ## The names of a definition -/

theorem isNameQuote_quotes (d : Direction) :
    isNameQuote (oldQuote d) = true ∧ isNameQuote (newQuote d) = true := by
  cases d <;> decide

theorem IsSource.run {d : Direction} {sql source line : Text} (h : IsSource d sql source line)
    (hplain : HasPlainNames d source) :
    NameReading.start.run d.source line = NameReading.start.run d.source source := by
  obtain ⟨q, rfl⟩ := h.quotes
  obtain ⟨hold, hnew⟩ := isNameQuote_quotes d
  have hstart : Twins (oldQuote d) (newQuote d) q NameReading.start.part NameReading.start.part := rfl
  exact run_requoteAt hold hnew hstart rfl hplain.closed hplain.no_quote

end SchemaDialects.Conversion
