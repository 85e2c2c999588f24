import CfProxy.Shared.Machine
import CfProxy.Shared.Stateful

set_option autoImplicit false

namespace Machine

universe v x

variable {S : Type v} {α : Type x} {σ β : Type}

-- Some run of the system comes to what the computation returns and leaves: the steps do what it does in one piece.
def Performs (sys : System S α) (view : σ → S → Prop) (ends : Except PyError β → S → Prop) (first : S) (x : Stateful σ β)
    (s : σ) : Prop :=
  ∃ labels after, sys.run first labels = some after ∧ view (x s).2 after ∧ ends (x s).1 after

namespace Performs

variable {sys : System S α} {view : σ → S → Prop} {ends : Except PyError β → S → Prop} {first middle : S}
variable {x y : Stateful σ β} {s t : σ} {result : Except PyError β}

theorem done (same : x s = (result, t)) (shows : view t first) (ended : ends result first) :
    Performs sys view ends first x s :=
  ⟨[], first, rfl, by rwa [same], by rwa [same]⟩

theorem step {label : α} (stepped : sys.step first label = some middle) (rest : Performs sys view ends middle x s) :
    Performs sys view ends first x s := by
  obtain ⟨labels, after, ran, shows, ended⟩ := rest
  exact ⟨label :: labels, after, by simp [stepped, ran], shows, ended⟩

theorem congr (rest : Performs sys view ends first y t) (same : x s = y t) : Performs sys view ends first x s := by
  obtain ⟨labels, after, ran, shows, ended⟩ := rest
  exact ⟨labels, after, ran, by rwa [same], by rwa [same]⟩

end Performs

end Machine
