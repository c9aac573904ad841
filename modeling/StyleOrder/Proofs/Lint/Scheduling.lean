import Mathlib.Data.List.Sigma
import Mathlib.Logic.Relation
import StyleOrder.Lint.Batch

namespace StyleOrder
namespace Batch

/-!
# Batches under every schedule

A pool of workers lints the files of a batch.  A free worker takes some file that
is waiting, lints it and sends the result, or stops before it has sent anything;
the results on their way arrive in any order.  The pool runs each file once at
most and loses no result that was sent.

What has arrived, what is on its way and what the remaining files would give are
together the results of the whole batch, in some order, after every step.  So
when nothing is left to do, at most one result has arrived for each place, and
putting them back gives the same report for every schedule in which no worker
stopped.  The schedules are not restricted further: any selection of the files
can arrive, in any order, with a single worker already.
-/

/-! ## Putting results back -/

@[simp] theorem length_reassemble (names : List String) (arrivals : List Arrival) :
    (reassemble names arrivals).length = names.length := by
  simp [reassemble]

theorem getElem?_reassemble (names : List String) (arrivals : List Arrival) (place : Nat) :
    (reassemble names arrivals)[place]? =
      names[place]?.map fun name => (slot arrivals place).getD (lost name) := by
  simp [reassemble, List.getElem?_zipIdx, Function.comp_def]

theorem slot_eq_none {arrivals : List Arrival} {place : Nat}
    (silent : ∀ report, (place, report) ∉ arrivals) : slot arrivals place = none := by
  simp only [slot, Option.map_eq_none_iff, List.find?_eq_none, List.mem_reverse,
    decide_eq_true_eq]
  rintro ⟨other, report⟩ member rfl
  exact silent report member

/-- Where each place sends once at most, it does not matter that the last result
counts. -/
theorem slot_eq_some {arrivals : List Arrival} (distinct : (arrivals.map Prod.fst).Nodup)
    {place : Nat} {report : FileReport} (member : (place, report) ∈ arrivals) :
    slot arrivals place = some report := by
  cases found : arrivals.reverse.find? (·.1 = place) with
  | none =>
      have absent := List.find?_eq_none.mp found (place, report) (List.mem_reverse.mpr member)
      simp at absent
  | some arrival =>
      have here : arrival.1 = place := by simpa using List.find?_some found
      have among : arrival ∈ arrivals := List.mem_reverse.mp (List.mem_of_find?_eq_some found)
      have same : arrival = (place, report) :=
        List.inj_on_of_nodup_map distinct among member here
      rw [slot, found, same]
      rfl

/-- The files of a report answer the inputs of the batch place by place: with the
result that arrived for the place, or as lost if none did. -/
structure Collected (inputs : List Input) (arrivals : List Arrival)
    (files : List FileReport) : Prop where
  length : files.length = inputs.length
  arrived : ∀ place report, place < inputs.length → (place, report) ∈ arrivals →
    files[place]? = some report
  missing : ∀ place input, inputs[place]? = some input →
    (∀ report, (place, report) ∉ arrivals) → files[place]? = some (lost input.name)

theorem reassemble_collected (inputs : List Input) {arrivals : List Arrival}
    (distinct : (arrivals.map Prod.fst).Nodup) :
    Collected inputs arrivals (reassemble (inputs.map Input.name) arrivals) where
  length := by simp
  arrived := by
    intro place report inside member
    have found : inputs[place]? = some inputs[place] := List.getElem?_eq_getElem inside
    rw [getElem?_reassemble, List.getElem?_map, found, slot_eq_some distinct member]
    rfl
  missing := by
    intro place input found silent
    rw [getElem?_reassemble, List.getElem?_map, found, slot_eq_none silent]
    rfl

/-! ## The results of a batch -/

/-- The results of all files, in the order of the batch. -/
def results (inputs : List Input) (settings : RuleSettings) : List Arrival :=
  inputs.zipIdx.map (result settings)

theorem mem_results_iff {inputs : List Input} {settings : RuleSettings} {place : Nat}
    {report : FileReport} :
    (place, report) ∈ results inputs settings ↔
      ∃ input, inputs[place]? = some input ∧ report = input.lint settings := by
  constructor
  · intro member
    rcases List.mem_map.mp member with ⟨⟨input, index⟩, among, same⟩
    rcases Prod.mk.inj same with ⟨rfl, rfl⟩
    exact ⟨input, List.mk_mem_zipIdx_iff_getElem?.mp among, rfl⟩
  · rintro ⟨input, found, rfl⟩
    exact List.mem_map.mpr ⟨(input, place), List.mk_mem_zipIdx_iff_getElem?.mpr found, rfl⟩

theorem nodup_places_results (inputs : List Input) (settings : RuleSettings) :
    ((results inputs settings).map Prod.fst).Nodup := by
  have places : (results inputs settings).map Prod.fst = inputs.zipIdx.map Prod.snd := by
    rw [results, List.map_map]
    rfl
  rw [places]
  exact List.nodup_zipIdx_map_snd inputs

/-- If every result arrives, the order of arrival is undone. -/
theorem reassemble_of_perm {inputs : List Input} {settings : RuleSettings}
    {arrivals : List Arrival} (all : arrivals.Perm (results inputs settings)) :
    reassemble (inputs.map Input.name) arrivals = inputs.map (·.lint settings) := by
  have distinct : (arrivals.map Prod.fst).Nodup :=
    (all.map Prod.fst).nodup_iff.mpr (nodup_places_results inputs settings)
  have collected := reassemble_collected inputs distinct
  apply List.ext_getElem?
  intro place
  rw [List.getElem?_map]
  cases found : inputs[place]? with
  | none =>
      have beyond : inputs.length ≤ place := List.getElem?_eq_none_iff.mp found
      exact List.getElem?_eq_none (by rw [collected.length]; exact beyond)
  | some input =>
      have member : (place, input.lint settings) ∈ arrivals :=
        all.mem_iff.mpr (mem_results_iff.mpr ⟨input, found, rfl⟩)
      have inside : place < inputs.length := (List.getElem?_eq_some_iff.mp found).1
      exact collected.arrived place _ inside member

/-! ## Taking turns -/

/-- Every file falls to one of the workers that take turns. -/
theorem arrivals_perm {count : Nat} (positive : 0 < count) (inputs : List Input)
    (settings : RuleSettings) : (arrivals count inputs settings).Perm (results inputs settings) := by
  have once : inputs.zipIdx.Nodup := .of_map Prod.snd (List.nodup_zipIdx_map_snd inputs)
  have shared : ((List.range count).flatMap fun worker =>
      inputs.zipIdx.filter (·.2 % count = worker)).Perm inputs.zipIdx := by
    apply (List.perm_ext_iff_of_nodup _ once).mpr
    · intro job
      simp [Nat.mod_lt _ positive]
    · apply List.nodup_flatMap.mpr
      constructor
      · intro worker _
        exact once.filter _
      · apply List.nodup_range.imp
        intro worker other apart job mine yours
        simp only [List.mem_filter, decide_eq_true_eq] at mine yours
        exact apart (mine.2.symm.trans yours.2)
  simpa only [arrivals, results, List.map_flatMap] using shared.map (result settings)

theorem workers_pos (jobs total : Nat) : 0 < workers jobs total := by
  simp only [workers]
  omega

/-- The number of workers does not show in the report. -/
theorem lint_files (inputs : List Input) (settings : RuleSettings) (jobs : Nat) :
    (lint inputs settings jobs).files = inputs.map (·.lint settings) := by
  simp only [lint]
  split
  · rfl
  · exact reassemble_of_perm (arrivals_perm (workers_pos jobs inputs.length) inputs settings)

/-! ## The pool -/

/-- The files that wait and those that workers have taken, the results on their
way, those that have arrived, and the files whose workers stopped. -/
structure Pool where
  waiting : List Job
  busy : List Job
  sent : List Arrival
  arrived : List Arrival
  stopped : List Job

namespace Pool

/-- No worker is at work and no result is on its way. -/
def idle (waiting : List Job) (arrived : List Arrival) (stopped : List Job) : Pool :=
  ⟨waiting, [], [], arrived, stopped⟩

def start (inputs : List Input) : Pool :=
  idle inputs.zipIdx [] []

/-- One step of a pool of `count` workers.  Which file is taken, which worker is
done and which result arrives are all left open. -/
inductive Step (settings : RuleSettings) (count : Nat) : Pool → Pool → Prop
  | take (before after : List Job) (job : Job) (busy : List Job) (sent arrived : List Arrival)
      (stopped : List Job) (free : busy.length < count) :
      Step settings count ⟨before ++ job :: after, busy, sent, arrived, stopped⟩
        ⟨before ++ after, job :: busy, sent, arrived, stopped⟩
  | send (waiting before after : List Job) (job : Job) (sent arrived : List Arrival)
      (stopped : List Job) :
      Step settings count ⟨waiting, before ++ job :: after, sent, arrived, stopped⟩
        ⟨waiting, before ++ after, result settings job :: sent, arrived, stopped⟩
  | stop (waiting before after : List Job) (job : Job) (sent arrived : List Arrival)
      (stopped : List Job) :
      Step settings count ⟨waiting, before ++ job :: after, sent, arrived, stopped⟩
        ⟨waiting, before ++ after, sent, arrived, stopped ++ [job]⟩
  | deliver (waiting busy : List Job) (before after : List Arrival) (arrival : Arrival)
      (arrived : List Arrival) (stopped : List Job) :
      Step settings count ⟨waiting, busy, before ++ arrival :: after, arrived, stopped⟩
        ⟨waiting, busy, before ++ after, arrived ++ [arrival], stopped⟩

/-- Any number of steps. -/
abbrev Walk (settings : RuleSettings) (count : Nat) : Pool → Pool → Prop :=
  Relation.ReflTransGen (Step settings count)

/-- Nothing is left to do. -/
structure Finished (pool : Pool) : Prop where
  waiting : pool.waiting = []
  busy : pool.busy = []
  sent : pool.sent = []

/-- All results of a pool: those that arrived, those on their way, and those its
other files would give. -/
def accounted (settings : RuleSettings) (pool : Pool) : List Arrival :=
  pool.arrived ++ (pool.sent ++
    (pool.busy ++ (pool.waiting ++ pool.stopped)).map (result settings))

/-! ## What a step keeps -/

variable {settings : RuleSettings} {count : Nat} {pool next : Pool}

theorem Step.perm (step : Step settings count pool next) :
    (next.accounted settings).Perm (pool.accounted settings) := by
  cases step with
  | take before after job busy sent arrived stopped free =>
      have moved : (busy ++ before ++ job :: (after ++ stopped)).Perm
          (job :: (busy ++ before ++ (after ++ stopped))) := List.perm_middle
      simp only [List.append_assoc] at moved
      simp only [accounted, List.append_assoc, List.cons_append]
      exact ((moved.symm.map _).append_left _).append_left _
  | send waiting before after job sent arrived stopped =>
      have moved : (sent ++ before.map (result settings) ++ result settings job ::
            (after ++ (waiting ++ stopped)).map (result settings)).Perm
          (result settings job :: (sent ++ before.map (result settings) ++
            (after ++ (waiting ++ stopped)).map (result settings))) := List.perm_middle
      simp only [List.append_assoc, List.map_append] at moved
      simp only [accounted, List.append_assoc, List.cons_append, List.map_append, List.map_cons]
      exact moved.symm.append_left _
  | stop waiting before after job sent arrived stopped =>
      have moved : (after ++ (waiting ++ stopped) ++ [job]).Perm
          (job :: (after ++ (waiting ++ stopped))) := List.perm_append_singleton job _
      simp only [List.append_assoc] at moved
      simp only [accounted, List.append_assoc, List.cons_append]
      exact (((moved.append_left before).map _).append_left _).append_left _
  | deliver waiting busy before after arrival arrived stopped =>
      simp only [accounted, List.append_assoc, List.cons_append, List.nil_append]
      exact List.perm_middle.symm.append_left arrived

theorem Walk.perm (walk : Walk settings count pool next) :
    (next.accounted settings).Perm (pool.accounted settings) := by
  induction walk with
  | refl => exact List.Perm.refl _
  | tail _ step ih => exact step.perm.trans ih

/-- How many steps are left if no worker stops: three for a file that waits. -/
def pending (pool : Pool) : Nat :=
  3 * pool.waiting.length + 2 * pool.busy.length + pool.sent.length

theorem Walk.results_perm {inputs : List Input} (walk : Walk settings count (start inputs) pool)
    (finished : pool.Finished) :
    (pool.arrived ++ pool.stopped.map (result settings)).Perm (results inputs settings) := by
  have kept := walk.perm
  simpa [accounted, start, idle, results, finished.waiting, finished.busy, finished.sent] using kept

theorem Walk.nodup_all_places {inputs : List Input}
    (walk : Walk settings count (start inputs) pool) (finished : pool.Finished) :
    (pool.arrived.map Prod.fst ++ pool.stopped.map Prod.snd).Nodup := by
  have distinct := ((walk.results_perm finished).map Prod.fst).nodup_iff.mpr
    (nodup_places_results inputs settings)
  rw [List.map_append, List.map_map] at distinct
  exact distinct

theorem Walk.nodup_places {inputs : List Input} (walk : Walk settings count (start inputs) pool)
    (finished : pool.Finished) : (pool.arrived.map Prod.fst).Nodup :=
  (walk.nodup_all_places finished).of_append_left

theorem Walk.mem_arrived {inputs : List Input} (walk : Walk settings count (start inputs) pool)
    (finished : pool.Finished) {place : Nat} {input : Input} (found : inputs[place]? = some input)
    (running : place ∉ pool.stopped.map Prod.snd) :
    (place, input.lint settings) ∈ pool.arrived := by
  have member := (walk.results_perm finished).mem_iff.mpr (mem_results_iff.mpr ⟨input, found, rfl⟩)
  rcases List.mem_append.mp member with arrived | unsent
  · exact arrived
  · -- Two files may give the same report, so only the place tells them apart.
    rcases List.mem_map.mp unsent with ⟨job, stopped, same⟩
    have here : job.2 = place := congrArg Prod.fst same
    exact absurd (here ▸ List.mem_map_of_mem stopped) running

theorem Walk.not_mem_arrived {inputs : List Input}
    (walk : Walk settings count (start inputs) pool) (finished : pool.Finished) {place : Nat}
    (ended : place ∈ pool.stopped.map Prod.snd) (report : FileReport) :
    (place, report) ∉ pool.arrived := by
  intro member
  have distinct := walk.nodup_all_places finished
  exact List.disjoint_of_nodup_append distinct (List.mem_map_of_mem member) ended

/-- Each file is answered by its own result unless its worker stopped. -/
theorem Walk.getElem?_reassemble {inputs : List Input}
    (walk : Walk settings count (start inputs) pool) (finished : pool.Finished) {place : Nat}
    {input : Input} (found : inputs[place]? = some input) :
    (reassemble (inputs.map Input.name) pool.arrived)[place]? =
      some (if place ∈ pool.stopped.map Prod.snd then lost input.name
        else input.lint settings) := by
  have collected := reassemble_collected inputs (walk.nodup_places finished)
  split
  · rename_i ended
    exact collected.missing place input found (walk.not_mem_arrived finished ended)
  · rename_i running
    have inside : place < inputs.length := (List.getElem?_eq_some_iff.mp found).1
    exact collected.arrived place _ inside (walk.mem_arrived finished found running)

/-! ## Every selection can arrive in every order -/

theorem walk_send (positive : 0 < count) (before after : List Job) (job : Job)
    (arrived : List Arrival) (stopped : List Job) :
    Walk settings count (idle (before ++ job :: after) arrived stopped)
      (idle (before ++ after) (arrived ++ [result settings job]) stopped) := by
  apply Relation.ReflTransGen.head (.take before after job [] [] arrived stopped positive)
  apply Relation.ReflTransGen.head (.send (before ++ after) [] [] job [] arrived stopped)
  exact .single (.deliver (before ++ after) [] [] [] (result settings job) arrived stopped)

theorem walk_stop (positive : 0 < count) (before after : List Job) (job : Job)
    (arrived : List Arrival) (stopped : List Job) :
    Walk settings count (idle (before ++ job :: after) arrived stopped)
      (idle (before ++ after) arrived (stopped ++ [job])) := by
  apply Relation.ReflTransGen.head (.take before after job [] [] arrived stopped positive)
  exact .single (.stop (before ++ after) [] [] job [] arrived stopped)

/-- A file that is asked for can be picked from those that wait. -/
theorem exists_pick {job : Job} {others waiting : List Job} (same : (job :: others).Perm waiting) :
    ∃ before after, waiting = before ++ job :: after ∧ others.Perm (before ++ after) := by
  have member : job ∈ waiting := same.mem_iff.mp List.mem_cons_self
  rcases List.append_of_mem member with ⟨before, after, rfl⟩
  exact ⟨before, after, rfl, (same.trans List.perm_middle).cons_inv⟩

theorem exists_walk_send (positive : 0 < count) (order rest : List Job) (stopped : List Job)
    {waiting : List Job} (arrived : List Arrival) (same : (order ++ rest).Perm waiting) :
    ∃ left, rest.Perm left ∧ Walk settings count (idle waiting arrived stopped)
      (idle left (arrived ++ order.map (result settings)) stopped) := by
  induction order generalizing waiting arrived with
  | nil => exact ⟨waiting, same, by simpa using Relation.ReflTransGen.refl⟩
  | cons job others ih =>
      rcases exists_pick same with ⟨before, after, rfl, picked⟩
      rcases ih (arrived ++ [result settings job]) picked with ⟨left, kept, walk⟩
      refine ⟨left, kept, (walk_send positive before after job arrived stopped).trans ?_⟩
      simpa using walk

theorem walk_stop_all (positive : 0 < count) (order : List Job) {waiting : List Job}
    (arrived : List Arrival) (stopped : List Job) (same : order.Perm waiting) :
    Walk settings count (idle waiting arrived stopped) (idle [] arrived (stopped ++ order)) := by
  induction order generalizing waiting stopped with
  | nil =>
      rw [List.append_nil, ← same.nil_eq]
  | cons job others ih =>
      rcases exists_pick same with ⟨before, after, rfl, picked⟩
      have walk := ih (stopped ++ [job]) picked
      rw [List.append_assoc] at walk
      exact (walk_stop positive before after job arrived stopped).trans walk

/-- Any files may be those whose workers stop, and the results of the others may
arrive in any order. -/
theorem walk_of_perm (positive : 0 < count) {inputs : List Input}
    {order stopped : List Job} (all : (order ++ stopped).Perm inputs.zipIdx) :
    Walk settings count (start inputs) (idle [] (order.map (result settings)) stopped) := by
  rcases exists_walk_send positive order stopped [] [] all with ⟨left, kept, sending⟩
  exact sending.trans (walk_stop_all positive stopped _ [] kept)

end Pool

/-! ## Neither the schedule nor the number of workers shows -/

end Batch
end StyleOrder
