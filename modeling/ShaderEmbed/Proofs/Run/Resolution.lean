import ShaderEmbed.Proofs.Run.Copy

/-!
# The ways to resolve a stage

A stage that is resolved was flattened, or compiled from a copy of its flattened text, or compiled
where it lies. Each way is one rule of `Pipeline.ResolvedBy`, and `goes_resolve_iff` says that there
is no other.
-/

namespace ShaderEmbed

namespace Pipeline

variable {self : Pipeline} {world left : World} {stage : StageSpec} {asked : List Path}
  {shader : ResolvedShader}

/-- What a stage was resolved to, and what it took. -/
inductive ResolvedBy (self : Pipeline) (world : World) (stage : StageSpec) :
    List Path → World → ResolvedShader → Prop
  | text {flat : Flattened} (hkind : stage.kind = .text)
      (hflat : ((self.source world).flatten self.marker stage.entry).result = .ok flat) :
      ResolvedBy self world stage [] world ⟨stage.name, .text flat.text, flat.sources⟩
  | copy {flat : Flattened} {bytes : Bytes} {asked : List Path} {left : World}
      (hkind : stage.kind = .binary) (hbinaries : self.flattenBinaries = true)
      (hflat : ((self.source world).flatten self.marker stage.entry).result = .ok flat)
      (hcompile : (self.compileFlattened stage.entry flat.text).Goes world asked left (.ok bytes)) :
      ResolvedBy self world stage asked left ⟨stage.name, .binary bytes, flat.sources⟩
  | direct {bytes : Bytes} {asked : List Path} {left : World} (hkind : stage.kind = .binary)
      (hbinaries : self.flattenBinaries = false)
      (hcompile : (self.compiler.compile (self.compileRoot.join stage.entry)).Goes world asked left
        (.ok bytes)) :
      ResolvedBy self world stage (self.compileRoot.join stage.entry :: asked) left
        ⟨stage.name, .binary bytes, [stage.entry]⟩

theorem goes_flatten (self : Pipeline) (entry : Path) (world : World) :
    (self.flatten entry).Goes world [] world
      ((self.source world).flatten self.marker entry).result :=
  (Job.goes_world world).quiet_bind (Job.goes_ofAttempt _ world)

theorem exists_of_flatten {entry : Path} {flat : Flattened}
    (h : (self.flatten entry).Goes world asked left (.ok flat)) :
    ((self.source world).flatten self.marker entry).result = .ok flat ∧
    asked = [] ∧ left = world := by
  obtain ⟨rfl, rfl, heq⟩ := h.unique (self.goes_flatten entry world)
  exact ⟨heq.symm, rfl, rfl⟩

theorem goes_resolve_iff :
    (self.resolve stage).Goes world asked left (.ok shader) ↔
    self.ResolvedBy world stage asked left shader := by
  constructor
  · intro h
    unfold resolve at h
    split at h
    · rename_i hkind
      obtain ⟨flat, hflatten, rfl⟩ := h.exists_of_yield
      obtain ⟨hflat, rfl, rfl⟩ := exists_of_flatten hflatten
      exact .text hkind hflat
    · rename_i hkind
      split at h
      · rename_i hbinaries
        obtain ⟨first, flat, mid, more, hflatten, hrest, rfl⟩ := h.exists_of_bind
        obtain ⟨hflat, rfl, rfl⟩ := exists_of_flatten hflatten
        obtain ⟨bytes, hcompile, rfl⟩ := hrest.exists_of_yield
        exact .copy hkind hbinaries hflat hcompile
      · rename_i hbinaries
        obtain ⟨bytes, hask, rfl⟩ := h.exists_of_yield
        obtain ⟨more, hcompile, rfl⟩ := Compiler.exists_of_ask hask
        exact .direct hkind (by simpa using hbinaries) hcompile
  · intro h
    have hflatten := self.goes_flatten stage.entry world
    cases h with
    | text hkind hflat =>
      rw [hflat] at hflatten
      simp only [resolve, hkind]
      exact hflatten.yield fun flat => ResolvedShader.mk stage.name (.text flat.text) flat.sources
    | copy hkind hbinaries hflat hcompile =>
      rw [hflat] at hflatten
      simp only [resolve, hkind, hbinaries, if_true]
      exact hflatten.quiet_bind (hcompile.yield fun bytes =>
        ResolvedShader.mk stage.name (.binary bytes) _)
    | direct hkind hbinaries hcompile =>
      simp only [resolve, hkind, hbinaries, Bool.false_eq_true, if_false]
      exact (Compiler.goes_ask hcompile).yield fun bytes =>
        ResolvedShader.mk stage.name (.binary bytes) [stage.entry]

end Pipeline

end ShaderEmbed
