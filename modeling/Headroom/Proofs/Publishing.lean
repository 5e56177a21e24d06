import Headroom.Proofs.Preparation
import Headroom.Simulation.Scenario

/-!
How often a batch is offered to the metrics backend, whatever its payload and however the
backend behaves (`publishes_once`). An offer is made just where there is something to
publish; it is one offer, of both averages over all records; and what the backend answers in
time decides the outcome. The backend may take the datapoints and answer too late, or answer
with any error; no further offer follows. Where decoding overflows nothing is offered, and
there is no outcome. Over the store in memory the log of datapoints grows by both or by none.
-/
namespace Headroom

namespace Pipeline

open LogBatch (Batch Delivery Outcome)

section

variable {σ : Type}

/-- How a metrics backend takes an offer. One that never answers takes longer than anybody
waits. -/
structure Taking (σ : Type) where
  /-- How long it takes to answer, in milliseconds. -/
  delay : Nat
  answer : Except Error Unit
  /-- The backend once it has answered. -/
  after : σ
  /-- The backend when the wait for its answer is given up, after some time; it may have taken
  the datapoints by then. -/
  cut : Nat → σ

/-- Offer datapoints, and wait for the answer as long as the pipeline does. -/
def within (p : Pipeline) (backend : σ → String → List Datapoint → Taking σ) (world : σ)
    (metricNamespace : String) (datapoints : List Datapoint) : Except Error Unit × σ :=
  let taking := backend world metricNamespace datapoints
  if taking.delay ≤ p.publishTimeout then (taking.answer, taking.after)
  else (.error p.timeout, taking.cut p.publishTimeout)

/-- Datapoints that were offered, under a namespace. -/
structure Offer where
  metricNamespace : String
  datapoints : List Datapoint

/-- Make an offer, and note it. -/
def noted (publish : σ → String → List Datapoint → Except Error Unit × σ)
    (w : σ × List Offer) (metricNamespace : String) (datapoints : List Datapoint) :
    Except Error Unit × (σ × List Offer) :=
  ((publish w.1 metricNamespace datapoints).1, (publish w.1 metricNamespace datapoints).2,
    w.2 ++ [⟨metricNamespace, datapoints⟩])

/-- Noting the offers does not change what is done. -/
theorem handle_noted (p : Pipeline)
    (publish : σ → String → List Datapoint → Except Error Unit × σ) (w : σ × List Offer)
    (d : Delivery) :
    { p.handle (noted publish) w d with world := (p.handle (noted publish) w d).world.1 } =
      p.handle publish w.1 d := by
  unfold handle noted
  cases p.prepare d with
  | error outcome => cases outcome <;> rfl
  | ok averages => rfl

/-- An offer is taken: the answer says so, and comes in time. -/
def Takes (p : Pipeline) (backend : σ → String → List Datapoint → Taking σ) (world : σ)
    (offer : Offer) : Prop :=
  (backend world offer.metricNamespace offer.datapoints).delay ≤ p.publishTimeout ∧
    (backend world offer.metricNamespace offer.datapoints).answer = .ok ()

/-- What handling a batch has to do with the metrics backend: the offers that are made, and
the backend and the outcome after them. -/
structure PublishesOnce (p : Pipeline) (d : Delivery)
    (backend : σ → String → List Datapoint → Taking σ) (world : σ) (outcome : Option Outcome)
    (offers : List Offer) (after : σ) : Prop where
  /-- An offer is made just where there is a sample to publish. -/
  due : offers ≠ [] ↔ ∃ batch, d.decode p.limit = .ok batch ∧ batch.control = false ∧
    batch.records.any Record.isSample
  once : offers.length ≤ 1
  /-- What is offered are the averages over all records, and what is answered decides. -/
  whole : ∀ offer ∈ offers, ∃ batch averages, d.decode p.limit = .ok batch ∧
    Averages.ofRecords p.target.container batch.records = .ok averages ∧
    offer = ⟨p.target.metricNamespace, [averages.cpu, averages.memory]⟩ ∧
    (outcome = some (.published averages) ↔ p.Takes backend world offer) ∧
    (¬ p.Takes backend world offer →
      ∃ detail, outcome = some (.publishFailed averages (.publish detail)))
  /-- Without an offer the batch is skipped or rejected, or its handling breaks off because
  decoding overflows; and the backend is left alone. -/
  alone : offers = [] →
    (outcome = some .skipped ∨ (∃ error, outcome = some (.rejected error)) ∨
      (outcome = none ∧ d.decode p.limit = .error .overflow)) ∧ after = world

/-- A failure to publish is one, whatever the backend called it. -/
theorem publishFailure_publish (error : Error) :
    ∃ detail, publishFailure error = .publish detail := by
  cases error with
  | publish detail => exact ⟨detail, rfl⟩
  | _ => exact ⟨_, rfl⟩

/-- Only what was taken is published. -/
theorem conclude_published {averages taken : Averages} {answer : Except Error Unit}
    (published : conclude averages answer = .published taken) : answer = .ok () := by
  cases answer with
  | ok _ => rfl
  | error error => cases published

/-- A pipeline goes by the answer that comes in time. -/
theorem conclude_within (p : Pipeline) (backend : σ → String → List Datapoint → Taking σ)
    (world : σ) (averages : Averages) (offer : Offer) :
    let outcome :=
      conclude averages (p.within backend world offer.metricNamespace offer.datapoints).1
    (outcome = .published averages ↔ p.Takes backend world offer) ∧
      (¬ p.Takes backend world offer →
        ∃ detail, outcome = .publishFailed averages (.publish detail)) := by
  intro outcome
  have failing (error : Error)
      (failed : outcome = .publishFailed averages (publishFailure error)) :
      ∃ detail, outcome = .publishFailed averages (.publish detail) := by
    obtain ⟨detail, named⟩ := publishFailure_publish error
    exact ⟨detail, by rw [failed, named]⟩
  by_cases late : (backend world offer.metricNamespace offer.datapoints).delay ≤ p.publishTimeout
  · cases answer : (backend world offer.metricNamespace offer.datapoints).answer with
    | ok taken =>
      have published : outcome = .published averages := by
        simp [outcome, within, late, answer, conclude]
      have takes : p.Takes backend world offer := ⟨late, answer⟩
      exact ⟨iff_of_true published takes, fun refused => absurd takes refused⟩
    | error error =>
      have failed : outcome = .publishFailed averages (publishFailure error) := by
        simp [outcome, within, late, answer, conclude]
      have refused : ¬ p.Takes backend world offer := by
        simp [Takes, answer]
      exact ⟨iff_of_false (by simp [failed]) refused, fun _ => failing error failed⟩
  · have failed : outcome = .publishFailed averages (publishFailure p.timeout) := by
      simp [outcome, within, late, conclude]
    have refused : ¬ p.Takes backend world offer := fun takes => late takes.1
    exact ⟨iff_of_false (by simp [failed]) refused, fun _ => failing p.timeout failed⟩

theorem handle_publishesOnce (p : Pipeline) (d : Delivery)
    (backend : σ → String → List Datapoint → Taking σ) (world : σ) :
    let done := p.handle (noted (p.within backend)) (world, []) d
    PublishesOnce p d backend world done.outcome done.world.2 done.world.1 := by
  -- Without averages nothing is offered.
  have unoffered (outcome : Option Outcome)
      (ends : outcome = some .skipped ∨ (∃ error, outcome = some (.rejected error)) ∨
        (outcome = none ∧ d.decode p.limit = .error .overflow))
      (invalid : ¬ ∃ batch, d.decode p.limit = .ok batch ∧ batch.control = false ∧
        batch.records.any Record.isSample) :
      PublishesOnce p d backend world outcome [] world :=
    { due := iff_of_false (by simp) invalid
      once := by simp
      whole := by simp
      alone := fun _ => ⟨ends, rfl⟩ }
  unfold handle
  have prepared := p.prepared d
  generalize p.prepare d = prepares at prepared
  cases prepared with
  | undecoded error refused =>
    apply unoffered _ (.inr (.inl ⟨error, rfl⟩))
    simp [refused]
  | overflow overflows =>
    apply unoffered _ (.inr (.inr ⟨rfl, overflows⟩))
    simp [overflows]
  | control batch decoded probes =>
    apply unoffered _ (.inl rfl)
    simp [decoded, probes]
  | empty batch decoded carries invalid =>
    apply unoffered _ (.inr (.inl ⟨_, rfl⟩))
    simpa [decoded, carries] using invalid
  | averaged batch averages decoded carries valid taken =>
    obtain ⟨published, failed⟩ := p.conclude_within backend world averages
      ⟨p.target.metricNamespace, averages.datapoints⟩
    exact
      { due := iff_of_true (by simp [noted]) ⟨batch, decoded, carries, valid⟩
        once := by simp [noted]
        whole := by
          intro offer made
          obtain rfl := List.mem_singleton.mp made
          exact ⟨batch, averages, decoded, taken, rfl, by simpa [noted] using published,
            by simpa [noted] using failed⟩
        alone := by simp [noted] }

end

end Pipeline

namespace Simulation

/-- How the metrics store of a simulated world takes an offer. -/
def World.backend (w : World) (metricNamespace : String) (datapoints : List Datapoint) :
    Pipeline.Taking World :=
  let (d, w) := w.next .publish
  let w := w.note 0 (.publish metricNamespace datapoints.length)
  let (answer, stores) := d.effect (fun s => s.publish metricNamespace datapoints) w.stores
  { delay := d.delay + d.delayAfter
    answer
    after := { w with stores }
    cut := fun limit => if limit < d.delay then w else { w with stores } }

@[simp] theorem bindIfAny_monitor (binding : Option Binding) (stores : Stores) :
    (bindIfAny binding stores).monitor = stores.monitor := by
  cases binding <;> rfl

/-- A log of datapoints after an offer: as it was, or longer by all that was offered. -/
def Took (offer : Pipeline.Offer) (before after : Stores) : Prop :=
  after.monitor.published =
    before.monitor.published ++ offer.datapoints.map (offer.metricNamespace, ·)

/-- The log has taken all of an offer or nothing, and all of it where the answer says so. -/
structure TakesWhole (offer : Pipeline.Offer) (before : Stores)
    (done : Except Error Unit × Stores) : Prop where
  whole : done.2.monitor.published = before.monitor.published ∨ Took offer before done.2
  told : done.1 = .ok () → Took offer before done.2

namespace TakesWhole

variable {offer : Pipeline.Offer} {before after before' after' : Stores}
  {answer : Except Error Unit}

/-- Only the log matters. -/
theorem congr (takes : TakesWhole offer before (answer, after))
    (earlier : before'.monitor = before.monitor) (later : after'.monitor = after.monitor) :
    TakesWhole offer before' (answer, after') := by
  constructor
  · simpa only [Took, earlier, later] using takes.whole
  · simpa only [Took, earlier, later] using takes.told

/-- An error promises nothing. -/
theorem unheard (takes : TakesWhole offer before (answer, after)) (error : Error) :
    TakesWhole offer before (.error error, after) :=
  ⟨takes.whole, by simp⟩

theorem untouched (offer : Pipeline.Offer) (stores : Stores) (error : Error) :
    TakesWhole offer stores (.error error, stores) :=
  ⟨.inl rfl, by simp⟩

theorem publish (offer : Pipeline.Offer) (stores : Stores) :
    TakesWhole offer stores (stores.publish offer.metricNamespace offer.datapoints) := by
  unfold Stores.publish Monitor.publish
  by_cases unnamed : offer.metricNamespace = ""
  · rw [if_pos unnamed]
    exact untouched offer stores _
  · rw [if_neg unnamed]
    exact ⟨.inr rfl, fun _ => rfl⟩

/-- An offer may be disturbed in any way. -/
theorem effect (d : Disturbance) (offer : Pipeline.Offer) (stores : Stores) :
    TakesWhole offer stores
      (d.effect (fun s => s.publish offer.metricNamespace offer.datapoints) stores) := by
  have taken := publish offer (bindIfAny d.bindBefore stores)
  unfold Disturbance.effect
  cases d.error with
  | none => exact taken.congr (by simp) (by simp)
  | some error =>
    cases d.afterEffect with
    | false => exact (untouched offer stores error).congr rfl (by simp)
    | true =>
      dsimp only
      generalize (bindIfAny d.bindBefore stores).publish offer.metricNamespace
        offer.datapoints = done at taken ⊢
      obtain ⟨answer, after⟩ := done
      cases answer with
      | ok _ => exact (taken.unheard error).congr (by simp) (by simp)
      | error refusal => exact taken.congr (by simp) (by simp)

/-- A pipeline may have given up the wait. -/
theorem within (p : Pipeline) (w : World) (offer : Pipeline.Offer) :
    let done := p.within World.backend w offer.metricNamespace offer.datapoints
    TakesWhole offer w.stores (done.1, done.2.stores) := by
  have taken := effect (w.next .publish).1 offer w.stores
  unfold Pipeline.within World.backend
  simp only [World.note, World.next_stores]
  split
  · exact taken
  · split
    · simpa using untouched offer w.stores p.timeout
    · exact taken.unheard p.timeout

end TakesWhole

/-- A scenario waits for its store as a pipeline does. -/
theorem Scenario.offer_within (s : Scenario) (metricNamespace : String)
    (datapoints : List Datapoint) :
    ((s.offer metricNamespace datapoints).1, (s.offer metricNamespace datapoints).2.2) =
      s.pipeline.within World.backend s.world metricNamespace datapoints := by
  unfold offer Pipeline.within World.backend
  generalize s.world.next .publish = taken
  obtain ⟨d, w⟩ := taken
  dsimp only
  by_cases late : s.pipeline.publishTimeout < d.delay
  · have given : ¬ d.delay + d.delayAfter ≤ s.pipeline.publishTimeout := by omega
    simp [late, given]
  · by_cases slow : s.pipeline.publishTimeout < d.delay + d.delayAfter
    · have given : ¬ d.delay + d.delayAfter ≤ s.pipeline.publishTimeout := by omega
      simp [late, slow, given]
    · have met : d.delay + d.delayAfter ≤ s.pipeline.publishTimeout := by omega
      simp [late, slow, met]

/-- A scenario handles a batch as its pipeline does. -/
theorem Scenario.batch_handled (s : Scenario) (d : LogBatch.Delivery) :
    let done := s.pipeline.handle (s.pipeline.within World.backend) s.world d
    (s.batch d).1.answer = .batch done.outcome ∧
      (s.batch d).2.world.stores = done.world.stores := by
  unfold Scenario.batch Pipeline.handle
  cases s.pipeline.prepare d with
  | error outcome => cases outcome <;> exact ⟨rfl, rfl⟩
  | ok averages =>
    dsimp only
    rw [← s.offer_within]
    exact ⟨rfl, rfl⟩

/-- What handling a batch does to the log of the metrics store: it takes an offer that was
made, or stays as it was, and it has taken what is said to be published. -/
structure LogGrows (s : Scenario) (d : LogBatch.Delivery) (outcome : Option LogBatch.Outcome)
    (offers : List Pipeline.Offer) : Prop where
  answered : (s.batch d).1.answer = .batch outcome
  grown : (s.batch d).2.world.stores.monitor.published = s.world.stores.monitor.published ∨
    ∃ offer ∈ offers, Took offer s.world.stores (s.batch d).2.world.stores
  published : ∀ averages, outcome = some (.published averages) →
    ∃ offer ∈ offers, Took offer s.world.stores (s.batch d).2.world.stores

theorem Scenario.batch_logGrows (s : Scenario) (d : LogBatch.Delivery) :
    let done := s.pipeline.handle
      (Pipeline.noted (s.pipeline.within World.backend)) (s.world, []) d
    LogGrows s d done.outcome done.world.2 := by
  obtain ⟨answer, stores⟩ := s.batch_handled d
  have prepared := s.pipeline.prepared d
  unfold Pipeline.handle at answer stores ⊢
  generalize s.pipeline.prepare d = prepares at answer stores prepared ⊢
  cases prepared with
  | averaged batch averages decoded carries valid taken =>
    obtain ⟨grown, published⟩ := TakesWhole.within s.pipeline s.world
      ⟨s.pipeline.target.metricNamespace, averages.datapoints⟩
    rw [← stores] at grown published
    have made := List.mem_singleton_self
      (⟨s.pipeline.target.metricNamespace, averages.datapoints⟩ : Pipeline.Offer)
    constructor
    case answered => exact answer
    case grown =>
      rcases grown with same | took
      · exact .inl same
      · exact .inr ⟨_, made, took⟩
    case published =>
      intro taken concluded
      exact ⟨_, made, published (Pipeline.conclude_published (Option.some.inj concluded))⟩
  | undecoded error refused =>
    exact ⟨answer, .inl (by rw [stores]), by simp⟩
  | overflow overflows =>
    exact ⟨answer, .inl (by rw [stores]), by simp⟩
  | control batch decoded probes =>
    exact ⟨answer, .inl (by rw [stores]), by simp⟩
  | empty batch decoded carries invalid =>
    exact ⟨answer, .inl (by rw [stores]), by simp⟩

end Simulation

/-- Whatever the payload of a batch and however the metrics backend behaves, the pipeline
makes at most one offer, and over the store in memory the log takes all of it or nothing. -/
theorem Pipeline.publishes_once (p : Pipeline) (d : LogBatch.Delivery) :
    (∀ (σ : Type) (backend : σ → String → List Datapoint → Taking σ) (world : σ),
      let done := p.handle (noted (p.within backend)) (world, []) d
      { done with world := done.world.1 } = p.handle (p.within backend) world d ∧
        PublishesOnce p d backend world done.outcome done.world.2 done.world.1) ∧
    ∀ s : Simulation.Scenario,
      let s := { s with pipeline := p }
      let done := p.handle (noted (p.within Simulation.World.backend)) (s.world, []) d
      Simulation.LogGrows s d done.outcome done.world.2 := by
  constructor
  · intro σ backend world
    exact ⟨p.handle_noted (p.within backend) (world, []) d,
      p.handle_publishesOnce d backend world⟩
  · intro s
    exact Simulation.Scenario.batch_logGrows { s with pipeline := p } d

end Headroom
