/-!
# Results and refusals

When steps that may refuse come to a result.

* `bind_eq_ok_iff`, `pure_eq_ok_iff`: one step after another;
* `exists_map_eq_ok_iff`, `mapError_eq_ok_iff`: a result or a refusal that is handed on.
-/

namespace FuzzCampaign

variable {ε ε' α β : Type}

theorem bind_eq_ok_iff {f : α → Except ε β} {r : Except ε α} {b : β} :
    (r >>= f) = .ok b ↔ ∃ a, r = .ok a ∧ f a = .ok b := by
  cases r with
  | error e => exact ⟨nofun, nofun⟩
  | ok a => exact ⟨fun h => ⟨a, rfl, h⟩, fun ⟨a', ha', h⟩ => by cases ha'; exact h⟩

theorem pure_eq_ok_iff {a b : α} : (pure a : Except ε α) = .ok b ↔ b = a :=
  ⟨fun h => by cases h; rfl, fun h => by rw [h]; rfl⟩

theorem exists_map_eq_ok_iff {f : α → β} {r : Except ε α} :
    (∃ b, r.map f = .ok b) ↔ ∃ a, r = .ok a := by
  cases r with
  | error e => exact ⟨nofun, nofun⟩
  | ok a => exact ⟨fun _ => ⟨a, rfl⟩, fun _ => ⟨f a, rfl⟩⟩

theorem mapError_eq_ok_iff {f : ε → ε'} {r : Except ε α} {a : α} :
    r.mapError f = .ok a ↔ r = .ok a := by
  cases r with
  | error e => exact ⟨nofun, nofun⟩
  | ok a' => exact ⟨fun h => by cases h; rfl, fun h => by cases h; rfl⟩

end FuzzCampaign
