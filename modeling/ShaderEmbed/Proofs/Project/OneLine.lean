import ShaderEmbed.Project.Diagnostic
import ShaderEmbed.Proofs.Text.Folding
import ShaderEmbed.Proofs.Text.Scan

/-!
# Diagnostics on one line

A diagnostic is folded as a whole, whatever texts and paths are in it, and so is what a tool printed
before it gets there. A tool's words may therefore be folded beforehand, or laid out in another way,
without a trace in the diagnostic (`diagnostic_compilation_congr`). `diagnostic_one_line` puts
together what folding does to it.
-/

namespace ShaderEmbed.BuildFailure

open Text

theorem newline_notMem_bar : '\n' ∉ bar.toList := by decide

theorem toList_diagnostic (failure : BuildFailure) : failure.diagnostic.toList =
    "[Error] ".toList ++ (fold bar (": ".intercalate failure.chain)).toList := by
  rw [diagnostic, String.toList_append]

theorem newline_notMem_diagnostic (failure : BuildFailure) : '\n' ∉ failure.diagnostic.toList := by
  rw [toList_diagnostic, List.mem_append, not_or]
  exact ⟨by decide, newline_notMem_fold newline_notMem_bar _⟩

/-- What a tool printed is told the same if it is folded to the same. -/
theorem diagnostic_compilation_congr {output other : String} (h : fold bar output = fold bar other)
    (contexts : List String) (entry : Path) (status : ExitStatus) :
    diagnostic ⟨contexts, .shader (.compilation entry status output)⟩ =
      diagnostic ⟨contexts, .shader (.compilation entry status other)⟩ := by
  have hmessage : (ShaderError.compilation entry status output).message =
      (ShaderError.compilation entry status other).message :=
    congrArg (fun folded => "compilation of " ++ entry.text ++ " failed (" ++
      status.text ++ "): " ++ folded) h
  have hchain : chain ⟨contexts, .shader (.compilation entry status output)⟩ =
      chain ⟨contexts, .shader (.compilation entry status other)⟩ := by
    simp only [chain, FailureCause.texts, hmessage, ShaderError.reason?]
  rw [diagnostic, hchain, diagnostic]

/-- A text written on one line: pieces of it with bars between them, which are not empty and have no
white space around them. Apart from the bars, the characters that are no white space are those of
the text, in their order. -/
def IsFolding (text folded : String) : Prop :=
  ∃ pieces : List String, folded = bar.intercalate pieces ∧
    (∀ piece ∈ pieces, piece ≠ "" ∧ '\n' ∉ piece.toList ∧ trimmed piece = piece) ∧
    pieces.flatMap (fun piece => ink piece.toList) = ink text.toList

/-- What is left of a text when it is folded: its lines without the white space around them, but for
blank ones. -/
theorem isFolding_fold (text : String) : IsFolding text (fold bar text) := by
  refine ⟨(solidLines text.toList).map String.ofList, rfl, ?_, ?_⟩
  · intro piece hpiece
    obtain ⟨line, hline, rfl⟩ := List.mem_map.mp hpiece
    have hsolid := isSolid_of_mem_solidLines hline
    refine ⟨?_, ?_, ?_⟩
    · intro hempty
      exact hsolid.ne_nil (by simpa using hempty)
    · rw [String.toList_ofList]
      exact hsolid.oneLine
    · rw [trimmed, String.toList_ofList, hsolid.trim_eq]
  · rw [← ink_solidLines, List.flatMap_map]
    induction solidLines text.toList with
    | nil => rfl
    | cons line others ih =>
      rw [List.flatMap_cons, String.toList_ofList, ih, List.flatten_cons, ink_append]

/-- A diagnostic is one line behind its mark: the folding of the contexts and the texts of the
cause, joined by colons. Each of these texts is in it, but for white space and bars. Folding a text
twice is folding it once, and neither the way in which its lines end nor white space around them nor
blank lines between them matter; but for white space nothing is lost, and nothing is put in but the
bars. So what a compiler printed is told the same if it was folded before. -/
theorem diagnostic_one_line :
    (∀ failure : BuildFailure,
      failure.diagnostic = "[Error] " ++
        fold bar (": ".intercalate (failure.contexts ++ failure.cause.texts)) ∧
      '\n' ∉ failure.diagnostic.toList ∧
      ∃ folded, failure.diagnostic = "[Error] " ++ folded ∧
        IsFolding (": ".intercalate (failure.contexts ++ failure.cause.texts)) folded ∧
        ∀ text ∈ failure.contexts ++ failure.cause.texts,
          ink text.toList <:+:
            ink (": ".intercalate (failure.contexts ++ failure.cause.texts)).toList) ∧
      (∀ text, fold bar (fold bar text) = fold bar text) ∧
      (∀ text other : String, Relaid text.toList other.toList → fold bar text = fold bar other) ∧
      (∀ text, IsFolding text (fold bar text)) ∧
      ∀ contexts entry status output,
        diagnostic ⟨contexts, .shader (.compilation entry status (fold bar output))⟩ =
          diagnostic ⟨contexts, .shader (.compilation entry status output)⟩ := by
  have hfold (text : String) : fold bar (fold bar text) = fold bar text :=
    fold_fold newline_notMem_bar text
  refine ⟨fun failure => ⟨rfl, failure.newline_notMem_diagnostic, _, rfl, isFolding_fold _, ?_⟩,
    hfold, fun _ _ h => h.fold_eq bar, isFolding_fold, ?_⟩
  · intro text htext
    obtain ⟨before, behind, hwhole⟩ := Text.infix_toList_intercalate htext
    rw [← hwhole, ink_append, ink_append]
    exact ⟨ink before, ink behind, rfl⟩
  · intro contexts entry status output
    exact diagnostic_compilation_congr (hfold output) contexts entry status

/-- Two lines with another end between them and a blank line, the second of them indented; and a
failure with such an output in two contexts, one of which has two lines itself. -/
theorem diagnostic_one_line_relaid : Relaid "a\nb".toList "a\r\n\t\n  b".toList ∧
    fold bar "a\nb" = fold bar "a\r\n\t\n  b" ∧
    diagnostic ⟨["building\n t", "stage c"],
      .shader (.compilation ⟨"c.comp"⟩ (.code 2) "a\r\n\t\n  b")⟩ =
      "[Error] building | t: stage c: compilation of c.comp failed (exit status: 2): a | b" := by
  have hreturned : Relaid "a\nb".toList "a\r\nb".toList := .rel _ _ (.returned ['a'] ['b'])
  have hspaced : Relaid "a\r\nb".toList "a\r\n\t\nb".toList :=
    .rel _ _ (@Edit.spaced ['a', '\r', '\n'] ['\t'] ['b'] (Or.inr ⟨['a', '\r'], rfl⟩) (by decide))
  have hindented : Relaid "a\r\n\t\nb".toList "a\r\n\t\n  b".toList :=
    .rel _ _ (@Edit.indented ['a', '\r', '\n', '\t', '\n'] [' ', ' '] ['b']
      (Or.inr ⟨['a', '\r', '\n', '\t'], rfl⟩) (by decide))
  have h : Relaid "a\nb".toList "a\r\n\t\n  b".toList :=
    (hreturned.trans _ _ _ hspaced).trans _ _ _ hindented
  refine ⟨h, diagnostic_one_line.2.2.1 _ _ h, (diagnostic_one_line.1 _).1.trans ?_⟩
  decide +kernel

end ShaderEmbed.BuildFailure
