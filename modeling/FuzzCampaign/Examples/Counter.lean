import FuzzCampaign.Worker.Bench

/-!
# A test of a counter

A counter contract goes up by one nine times of ten, and back to zero otherwise. The test drives it
for some steps, counts the hits of its two functions, and checks that the chain has not gone
backwards meanwhile.

* `Counter.test`: the test, as part of a module; `Counter.body`: what it does.
-/

namespace FuzzCampaign

namespace Counter

variable {σ : Type}

/-- The source of the contract. -/
def source : String := "contracts/Counter.sol"

/-- The place of the function that goes up. -/
def incrementPosition : Position := ⟨12, 4, 14, 5⟩

/-- The place of the function that goes back to zero. -/
def resetPosition : Position := ⟨16, 4, 18, 5⟩

/-- How many steps the test takes. -/
def steps : Nat := 64

/-- How likely the counter is to go up. -/
def likelihood : Float := 0.9

/-- The test, as part of a module. -/
def test (modulePath : String) : TestCase := ⟨modulePath, "fuzz_counter", [TestCase.coverageParam]⟩

/-- Pass an error on as the failure of the test. -/
def orFail {α : Type} : Except CampaignError α → BodyAction σ α
  | .ok a => return a
  | .error e => throw (.error (.ofCampaignError e))

/-- The number of the latest block. -/
def height (host : WorkerHost σ) : BodyAction σ UInt64 := do
  orFail (← .ofBench (Bench.request fun c => c.latestBlock host.exchange))

/-- Whether the counter goes up in a step. -/
def goesUp : BodyAction σ Bool := do
  match ← .ofBench (Bench.draw fun g => g.chance? likelihood) with
  | .ok up => return up
  | .error e => throw (.panic ⟨e.message, none, ""⟩)

/-- A step, which is a transaction of its own; gives the counter after it. -/
def step (n : Nat) (counter : UInt64) : BodyAction σ UInt64 := do
  .ofBench Bench.openTransaction
  .ofBench (Bench.watch "step" (toString n))
  let up ← goesUp
  let counter := if up then counter + 1 else 0
  .ofBench (if up then Bench.hit source incrementPosition "increment" 1
    else Bench.hit source resetPosition "reset" 1)
  .ofBench (Bench.watch "counter" (toString counter))
  return counter

/-- The failure of a chain that went backwards. -/
def wentBackwards (first last : UInt64) : BodyFailure :=
  .error ⟨s!"chain went backwards: {first} -> {last}", []⟩

/-- The body of the test. -/
def body : FuzzBody σ := fun host _ => do
  discard (orFail (← .ofBench (Bench.takeProbe host TestCase.coverageParam)))
  let first ← height host
  discard ((List.range steps).foldlM (fun counter n => step n counter) 0)
  let last ← height host
  if last < first then throw (wentBackwards first last)

end Counter

end FuzzCampaign
