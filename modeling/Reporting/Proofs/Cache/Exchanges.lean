import Reporting.Proofs.Cache.Walk

/-!
# What the answers of a run tell

On an exact clock every use of a cache is performed and answered. `exchanges` lists the uses with
their answers, those within computations before the computation itself, and each of them tells of a
moment of the run: the keys answered are those of the cache at that moment, and the result is the
one of its operation (`CacheState.exists_told`).
-/

namespace Reporting

variable {τ : Type}

def CacheAnswer.result : CacheAnswer → CacheResult
  | .mk result _ _ => result

def CacheAnswer.keys : CacheAnswer → List String
  | .mk _ keys _ => keys

mutual

/-- The uses within a computation with their answers. -/
def exchangesWithin : CacheUse τ → CacheResult → List (CacheUse τ × CacheAnswer)
  | .compute _ during _, .computed _ answers => exchanges during answers
  | .compute _ _ _, .nothing | .compute _ _ _, .found _ => []
  | .get _, _ | .put _ _, _ | .clear, _ | .advance _, _ => []

/-- Uses with their answers, in the order in which they end. -/
def exchanges : List (CacheUse τ) → List CacheAnswer → List (CacheUse τ × CacheAnswer)
  | use :: uses, answer :: answers =>
    exchangesWithin use answer.result ++ (use, answer) :: exchanges uses answers
  | _ :: _, [] | [], _ => []

end

theorem exchanges_nil (uses : List (CacheUse τ)) : exchanges uses [] = [] := by
  cases uses <;> rw [exchanges]

/-- The result of a use is the one of the operation of a moment. A computation that fails has no
operation of its own. -/
def CacheMoment.Results (moment : CacheMoment τ) : CacheUse τ → CacheResult → Prop
  | .get key, .found value => moment.event = .looked key value
  | .put key value, .nothing => moment.event = .stored key value
  | .clear, .nothing => moment.event = .cleared
  | .advance _, .nothing => moment.event = .passed
  | .compute key _ outcome, .computed (.ok value) _ =>
    moment.event = .looked key (some value) ∨
      moment.event = .stored key value ∧ outcome = .ok value
  | .compute _ _ outcome, .computed (.error (.failed message)) _ => outcome = .error message
  | _, _ => False

/-- An answered use tells of a moment. -/
def CacheMoment.ToldBy (moment : CacheMoment τ) (exchange : CacheUse τ × CacheAnswer) : Prop :=
  moment.cache.keys = exchange.2.keys ∧ moment.Results exchange.1 exchange.2.result

namespace CacheState

variable [Clock τ]

/-- A clock whose readings can all be compared refuses no look-up. -/
theorem refusesGet_of_exact (exact : ∀ first second : τ, Clock.mixes first second = true)
    (state : CacheState τ) (key : String) : state.refusesGet key = false := by
  rw [refusesGet, Cache.tellsAge]
  cases state.cache.find? key with
  | none => rfl
  | some entry => exact congrArg not (exact state.now entry.storedAt)

/-- A clock whose readings can all be compared refuses no use. -/
theorem refuses_of_exact (exact : ∀ first second : τ, Clock.mixes first second = true)
    (state : CacheState τ) (use : CacheUse τ) : state.refuses use = false := by
  cases use with
  | get key => exact refusesGet_of_exact exact state key
  | advance span => exact congrArg not (exact state.now span)
  | put key value => rfl
  | clear => rfl
  | compute key during outcome => rfl

/-- A run that nothing cuts short performs the first use, answers it and goes on. -/
theorem run_cons (state : CacheState τ) (use : CacheUse τ) (rest : List (CacheUse τ))
    (accepted : state.refuses use = false) :
    state.run (use :: rest) =
      let next := { (state.perform use).2 with pending := [] }
      ⟨.mk (state.perform use).1 (state.perform use).2.cache.keys (state.perform use).2.pending ::
        (run next rest).answers, (run next rest).state, (run next rest).halted⟩ := by
  rw [run, accepted]
  rfl

/-- On an exact clock no run is cut short. -/
theorem halted_of_exact (exact : ∀ first second : τ, Clock.mixes first second = true)
    (state : CacheState τ) (uses : List (CacheUse τ)) : (state.run uses).halted = false := by
  induction uses generalizing state with
  | nil => rw [run]
  | cons use rest ih =>
      rw [run_cons state use rest (refuses_of_exact exact state use)]
      exact ih _

/-- On an exact clock every use is answered. -/
theorem length_answers_of_exact (exact : ∀ first second : τ, Clock.mixes first second = true)
    (state : CacheState τ) (uses : List (CacheUse τ)) :
    (state.run uses).answers.length = uses.length := by
  induction uses generalizing state with
  | nil =>
      rw [run]
      rfl
  | cons use rest ih =>
      rw [run_cons state use rest (refuses_of_exact exact state use)]
      exact congrArg Nat.succ (ih _)

/-- A hit has a value. -/
theorem eq_some_of_isHit {found : Option Value} (hit : isHit found = true) :
    found = some (found.getD .null) := by
  cases found with
  | none => exact absurd hit Bool.false_ne_true
  | some value => rfl

/-- However the computation of a missing result ends, its result has the answers within it. -/
theorem exists_computed (state : CacheState τ) (key : String) (during : List (CacheUse τ))
    (outcome : Except String Value) : ∃ computed, (state.computeMissing key during outcome).1 =
      .computed computed ((state.log "Cache miss").run during).answers := by
  rw [computeMissing_eq]
  by_cases halted : ((state.log "Cache miss").run during).halted = true
  · rw [if_pos halted]
    exact ⟨_, rfl⟩
  · rw [if_neg halted]
    cases outcome <;> exact ⟨_, rfl⟩

/-- Where nothing is refused, the answer to a use tells of one of its moments. -/
theorem exists_told_performed (state : CacheState τ)
    (exact : ∀ first second : τ, Clock.mixes first second = true) (use : CacheUse τ) :
    ∃ moment ∈ state.momentsOf use, moment.ToldBy (use, ((state.perform use).2.answer
      (state.perform use).1).1) := by
  cases use with
  | get key =>
      rw [momentsOf, perform]
      exact ⟨_, List.mem_singleton_self _, rfl, rfl⟩
  | put key value =>
      rw [momentsOf, perform]
      exact ⟨_, List.mem_singleton_self _, rfl, rfl⟩
  | clear =>
      rw [momentsOf, perform]
      exact ⟨_, List.mem_singleton_self _, rfl, rfl⟩
  | advance span =>
      rw [momentsOf, perform]
      exact ⟨_, List.mem_singleton_self _, rfl, rfl⟩
  | compute key during outcome =>
      have reached := refusesGet_of_exact exact state key
      rw [momentsOf, reached, if_neg Bool.false_ne_true,
        perform_compute state key during outcome reached]
      by_cases hit : isHit (state.get key).1 = true
      · rw [if_pos hit, if_pos hit]
        exact ⟨_, List.mem_singleton_self _, rfl, Or.inl (congrArg _ (eq_some_of_isHit hit))⟩
      · rw [if_neg hit, if_neg hit, computeMissing_eq, momentsOfMissing.eq_def,
          halted_of_exact exact _ during, if_neg Bool.false_ne_true, if_neg Bool.false_ne_true]
        cases outcome with
        | error message =>
            -- The last moment is one within the computation, or the look-up before it.
            obtain ⟨-, walk⟩ := walk_moments ((state.get key).2.log "Cache miss") during
            obtain ⟨moment, inside, same⟩ :=
              (Walk.cons (.looked key) walk).exists_last (List.cons_ne_nil _ _)
            rw [List.append_nil]
            exact ⟨moment, inside, congrArg Cache.keys same, rfl⟩
        | ok value =>
            refine ⟨_, List.mem_cons_of_mem _ (List.mem_append_right _
              (List.mem_singleton_self _)), rfl, Or.inr ⟨rfl, rfl⟩⟩

mutual

/-- Every exchange within a use is told by a moment of that use. -/
theorem exists_told_within (exact : ∀ first second : τ, Clock.mixes first second = true)
    (state : CacheState τ) : (use : CacheUse τ) →
    ∀ exchange ∈ exchangesWithin use (state.perform use).1,
      ∃ moment ∈ state.momentsOf use, moment.ToldBy exchange
  | .get _ | .put _ _ | .clear | .advance _ => by
      intro exchange member
      rw [exchangesWithin] at member
      exact absurd member List.not_mem_nil
  | .compute key during outcome => by
      have reached := refusesGet_of_exact exact state key
      intro exchange member
      rw [momentsOf, reached, if_neg Bool.false_ne_true]
      rw [perform_compute state key during outcome reached] at member
      by_cases hit : isHit (state.get key).1 = true
      · rw [if_pos hit, exchangesWithin, exchanges_nil] at member
        exact absurd member List.not_mem_nil
      · rw [if_neg hit] at member
        rw [if_neg hit]
        obtain ⟨computed, result⟩ := (state.get key).2.exists_computed key during outcome
        rw [result, exchangesWithin] at member
        obtain ⟨moment, inside, told⟩ := exists_told exact _ during exchange member
        rw [momentsOfMissing.eq_def]
        exact ⟨moment, List.mem_cons_of_mem _ (List.mem_append_left _ inside), told⟩

/-- Every exchange of a run is told by one of its moments. -/
theorem exists_told (exact : ∀ first second : τ, Clock.mixes first second = true)
    (state : CacheState τ) : (uses : List (CacheUse τ)) →
    ∀ exchange ∈ exchanges uses (state.run uses).answers,
      ∃ moment ∈ state.moments uses, moment.ToldBy exchange
  | [] => by
      intro exchange member
      rw [run, exchanges] at member
      exact absurd member List.not_mem_nil
  | use :: rest => by
      have accepted := refuses_of_exact exact state use
      intro exchange member
      rw [run_cons state use rest accepted, exchanges, List.mem_append, List.mem_cons] at member
      rw [moments, accepted, if_neg Bool.false_ne_true]
      rcases member with within | same | others
      · obtain ⟨moment, inside, told⟩ := exists_told_within exact state use exchange within
        exact ⟨moment, List.mem_append_left _ inside, told⟩
      · obtain ⟨moment, inside, told⟩ := exists_told_performed state exact use
        exact ⟨moment, List.mem_append_left _ inside, same ▸ told⟩
      · obtain ⟨moment, inside, told⟩ := exists_told exact _ rest exchange others
        exact ⟨moment, List.mem_append_right _ inside, told⟩

end

end CacheState

end Reporting
