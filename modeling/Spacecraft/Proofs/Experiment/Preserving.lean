import Spacecraft.Experiment.Fibonacci
import Spacecraft.Proofs.Experiment.Turns
import Spacecraft.Storage.Files

/-!
# What experiments leave alone

The experiment thread touches the world through the experiments of its laboratory and through the record of their
results.  So what none of them breaks holds however long the thread runs (`ExperimentHost.Keeps.settle`).  The Fibonacci
experiment breaks nothing that its one file has no part in (`Fibonacci.preserves_experiment`).
-/

namespace Spacecraft

variable {σ : Type} {lab : Laboratory σ} {motive : σ → Prop}

/-- Nothing that the experiment does breaks a property of the world. -/
structure Experiment.Preserves (motive : σ → Prop) (e : Experiment σ) : Prop where
  start (controller : ExperimentController) (world : σ) : motive world → motive (e.start controller world).2
  iterate (controller : ExperimentController) (world : σ) : motive world → motive (e.iterate controller world).2.2
  stop (result : IterationResult) (world : σ) : motive world → motive (e.stop result world)

/-- Nothing that happens in the laboratory breaks a property of the world. -/
structure Laboratory.Preserves (motive : σ → Prop) (lab : Laboratory σ) : Prop where
  experiments : ∀ e ∈ lab.experiments, e.Preserves motive
  record (result : IterationResult) (world : σ) : motive world → motive (lab.record result world)

namespace ExperimentHost

/-- The world has a property, and the thread holds no experiment from outside the laboratory. -/
structure Keeps (lab : Laboratory σ) (motive : σ → Prop) (host : ExperimentHost σ) : Prop where
  held (e : Experiment σ) : host.thread.held? = some e → e ∈ lab.experiments
  world : motive host.world

theorem Keeps.step (hlab : lab.Preserves motive) {host next : ExperimentHost σ} {notes : List (ExperimentNote σ)}
    (h : host.Keeps lab motive) (hstep : ThreadStep lab host notes next) : next.Keeps lab motive := by
  obtain ⟨hheld, hworld⟩ := h
  constructor
  · intro e he
    cases hstep with
    | find _ hfind =>
      obtain rfl := Option.some.inj he
      exact List.mem_of_find?_eq_some hfind
    | receive | hangUp | drop | skip | refuse | stop | close | release | finish | record => cases he
    | _ => exact hheld e he
  · cases hstep with
    | start => exact (hlab.experiments _ (hheld _ rfl)).start _ _ hworld
    | @iterate c w e result calls w' hiterate =>
      have hnext := (hlab.experiments e (hheld e rfl)).iterate c w hworld
      rwa [hiterate] at hnext
    | stop => exact (hlab.experiments _ (hheld _ rfl)).stop _ _ hworld
    | record => exact hlab.record _ _ hworld
    | _ => exact hworld

theorem Keeps.settle (hlab : lab.Preserves motive) {host : ExperimentHost σ} (h : host.Keeps lab motive) (n : Nat) :
    (host.settle lab n).Keeps lab motive := by
  induction n generalizing host with
  | zero => exact h
  | succ n ih =>
    rw [ExperimentHost.settle]
    cases hnext : host.step lab with
    | none => exact h
    | some next => exact ih (h.step hlab (.of_step hnext))

end ExperimentHost

namespace Fibonacci

private theorem sameBut_start (fib : Fibonacci) (files : Files) : files.SameBut [path] (fib.start files).2.2 := by
  have hwrite : files.SameBut [path] (FileStore.write path [] files).2 :=
    files.sameBut_write [] (List.mem_singleton_self path)
  rw [start]
  rcases h : FileStore.write path [] files with ⟨result, later⟩
  rw [h] at hwrite
  cases result <;> exact hwrite

private theorem sameBut_iterate (fib : Fibonacci) (files : Files) : files.SameBut [path] (fib.iterate files).2.2 := by
  have hterm (term : Bytes) : files.SameBut [path] (FileStore.append path term files).2 :=
    files.sameBut_append term (List.mem_singleton_self path)
  rw [iterate]
  split
  · exact .refl _ files
  · have happend := hterm (LittleEndian.encode 8 fib.current.toNat)
    rcases h : FileStore.append path (LittleEndian.encode 8 fib.current.toNat) files with ⟨result, later⟩
    rw [h] at happend
    cases result <;> exact happend

/-- What changes of its file do not break, the experiment does not break. -/
theorem preserves_experiment {get : σ → Fibonacci × Files} {put : Fibonacci × Files → σ → σ}
    (hput : ∀ world fib files, (get world).2.SameBut [path] files → motive world → motive (put (fib, files) world)) :
    (experiment get put).Preserves motive where
  start _ world := hput world _ _ (sameBut_start _ _)
  iterate _ world := hput world _ _ (sameBut_iterate _ _)
  stop _ _ h := h

end Fibonacci

end Spacecraft
