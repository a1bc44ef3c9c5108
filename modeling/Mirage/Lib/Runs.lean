import Mathlib.Data.List.Basic

/-!
# Runs of a step function

A machine is a step function on states and events. `run` folds it over a list of events, and `Along
P` says that every step of the run meets `P`, read in the state before the step. An invariant that
such steps keep holds wherever a run along `P` arrives (`inv_run`).
-/

namespace Runs

variable {σ ε : Type*} (step : σ → ε → σ)

def run (s : σ) (es : List ε) : σ := es.foldl step s

/-- Every step of the run meets `P`. -/
def Along (P : σ → ε → Prop) : σ → List ε → Prop
  | _, [] => True
  | s, e :: es => P s e ∧ Along P (step s e) es

variable {step}

@[simp]
lemma run_nil (s : σ) : run step s [] = s := rfl

@[simp]
lemma run_cons (s : σ) (e : ε) (es : List ε) : run step s (e :: es) = run step (step s e) es := rfl

lemma run_append (s : σ) (es fs : List ε) :
    run step s (es ++ fs) = run step (run step s es) fs := by
  simp [run, List.foldl_append]

variable {P Q : σ → ε → Prop} {I : σ → Prop}

lemma along_append : ∀ {s : σ} {es fs : List ε},
    Along step P s (es ++ fs) ↔ Along step P s es ∧ Along step P (run step s es) fs
  | s, [], fs => by simp [Along]
  | s, e :: es, fs => by
    simp only [List.cons_append, Along, run_cons]
    rw [along_append]
    tauto

lemma along_true : ∀ s es, Along step (fun _ _ => True) s es
  | _, [] => trivial
  | s, e :: es => ⟨trivial, along_true (step s e) es⟩

lemma along_and_of_forall {R : ε → Prop} : ∀ {s : σ} {es : List ε}, (∀ e ∈ es, R e) →
    Along step P s es → Along step (fun s e => R e ∧ P s e) s es
  | _, [], _, _ => trivial
  | _, e :: _, hR, h =>
    ⟨⟨hR e List.mem_cons_self, h.1⟩,
      along_and_of_forall (fun e' he' => hR e' (List.mem_cons_of_mem _ he')) h.2⟩

instance decidableAlong [∀ s e, Decidable (P s e)] :
    ∀ (s : σ) (es : List ε), Decidable (Along step P s es)
  | _, [] => isTrue trivial
  | s, e :: es => @instDecidableAnd _ _ _ (decidableAlong (step s e) es)

/-- An invariant kept by every step that meets `P` holds where a run along `P` arrives. -/
theorem inv_run (hI : ∀ s e, I s → P s e → I (step s e)) :
    ∀ s es, I s → Along step P s es → I (run step s es)
  | _, [], hs, _ => hs
  | s, e :: es, hs, ha => inv_run hI (step s e) es (hI s e hs ha.1) ha.2

/-- What the invariant gives of one step, a run along `P` has at every step. -/
theorem along_of_inv (hI : ∀ s e, I s → P s e → I (step s e)) (hQ : ∀ s e, I s → P s e → Q s e) :
    ∀ s es, I s → Along step P s es → Along step Q s es
  | _, [], _, _ => trivial
  | s, e :: es, hs, ha =>
    ⟨hQ s e hs ha.1, along_of_inv hI hQ (step s e) es (hI s e hs ha.1) ha.2⟩

/-- What can only be lost by a step held all along if it holds where the run arrives. -/
theorem along_of_run (hI : ∀ s e, I (step s e) → I s) :
    ∀ s es, I (run step s es) → I s ∧ Along step (fun s e => I (step s e)) s es
  | _, [], h => ⟨h, trivial⟩
  | s, e :: es, h => by
    obtain ⟨hs, ha⟩ := along_of_run hI (step s e) es h
    exact ⟨hI s e hs, hs, ha⟩

lemma along_and : ∀ {s : σ} {es : List ε}, Along step P s es → Along step Q s es →
    Along step (fun s e => P s e ∧ Q s e) s es
  | _, [], _, _ => trivial
  | _, _ :: _, h, h' => ⟨⟨h.1, h'.1⟩, along_and h.2 h'.2⟩

end Runs
