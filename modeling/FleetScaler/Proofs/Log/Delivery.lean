import FleetScaler.Log.Logger

/-!
# Delivery

An entry reaches the sink by one of three routes: directly, by way of the queue and the worker's
hand, or out of the queue once the worker has been stopped. Whatever the route, what has been
delivered, then what is in the worker's hand, then what waits are always the entries that were let
through, in the order in which they were logged. So it makes no difference in the end that delivery
was asynchronous for a while.

One thread uses the logger, and the worker acts at any time in between. When the thread switches
asynchronous delivery off, it waits while the worker goes on until its hand is empty.
-/

namespace FleetScaler.Log

/-! ## Calls -/

/-- A call of the thread that uses the logger. -/
inductive Call where
  | log (e : Entry)
  | threshold (level : Level)
  | format (json : Bool)
  | switch (asynchronous : Bool)

namespace Call

/-- What a call does if the worker does nothing meanwhile. -/
def perform : Call → Logger → Logger
  | log e, l => l.log e
  | threshold level, l => l.setThreshold level
  | format json, l => l.setJsonFormat json
  | switch asynchronous, l => l.setAsynchronous asynchronous

/-- The call switches asynchronous delivery on or off. -/
def isSwitch : Call → Bool
  | switch _ => true
  | _ => false

end Call

/-- The entries that calls let through, in their order; the threshold is the one before the first
call. -/
def due (threshold : Level) : List Call → List Entry
  | [] => []
  | .log e :: rest =>
    if e.level.passes threshold then e :: due threshold rest else due threshold rest
  | .threshold level :: rest => due level rest
  | _ :: rest => due threshold rest

/-- The logger after the same calls, had asynchronous delivery never been switched on. -/
def synchronous (calls : List Call) : Logger :=
  (calls.filter fun c => !c.isSwitch).foldl (fun l c => c.perform l) {}

/-! ## What has been let through -/

namespace Logger

variable {l : Logger}

/-- The delivered entries, oldest first. -/
def delivered (l : Logger) : List Entry := (l.sink.map (·.entry)).reverse

/-- The entries that have been let through and not been delivered yet, oldest first. -/
def inTransit (l : Logger) : List Entry := l.inHand.toList ++ l.queue

/-- The entries that have been let through, oldest first. -/
def accepted (l : Logger) : List Entry := l.delivered ++ l.inTransit

@[simp] theorem delivered_deliver (l : Logger) (e : Entry) :
    (l.deliver e).delivered = l.delivered ++ [e] := by
  simp [delivered, deliver]

/-- Entries that are delivered one after the other go on top of the sink. -/
theorem foldl_deliver (es : List Entry) (l : Logger) :
    es.foldl deliver l
      = { l with
          sink := (es.map fun e => { entry := e, line := l.lineOf e }).reverse ++ l.sink } := by
  induction es generalizing l with
  | nil => rfl
  | cons e rest ih =>
      have hline : (l.deliver e).lineOf = l.lineOf := rfl
      rw [List.foldl_cons, ih, hline]
      simp [deliver]

/-- The parts of a logger that no delivery changes. -/
structure SameSettings (l l' : Logger) : Prop where
  threshold : l'.threshold = l.threshold
  asynchronous : l'.asynchronous = l.asynchronous
  jsonFormat : l'.jsonFormat = l.jsonFormat

/-- **The worker loses nothing and changes no order** when it takes an entry. -/
theorem accepted_take (l : Logger) : l.take.accepted = l.accepted ∧ SameSettings l l.take := by
  unfold take
  split
  · rename_i e rest hhand hqueue
    refine ⟨?_, rfl, rfl, rfl⟩
    simp [accepted, delivered, inTransit, hhand, hqueue]
  · exact ⟨rfl, rfl, rfl, rfl⟩

/-- Nor does it when it outputs the entry. -/
theorem accepted_output (l : Logger) :
    l.output.accepted = l.accepted ∧ l.output.inHand = none ∧ SameSettings l l.output := by
  unfold output
  split
  · rename_i e hhand
    refine ⟨?_, rfl, rfl, rfl, rfl⟩
    simp [accepted, delivered, inTransit, deliver, hhand]
  · rename_i hhand
    exact ⟨rfl, hhand, rfl, rfl, rfl⟩

/-- **Flushing delivers all that has been let through.** -/
theorem delivered_flush (l : Logger) :
    l.flush.delivered = l.accepted ∧ l.flush.inTransit = [] ∧ SameSettings l l.flush := by
  obtain ⟨haccepted, hhand, hsettings⟩ := l.accepted_output
  rw [← haccepted]
  simp only [flush, foldl_deliver]
  refine ⟨?_, by simp [inTransit, hhand],
    hsettings.threshold, hsettings.asynchronous, hsettings.jsonFormat⟩
  simp [accepted, delivered, inTransit, hhand, Function.comp_def]

/-- Logging changes no settings. -/
theorem sameSettings_log (l : Logger) (e : Entry) : SameSettings l (l.log e) := by
  unfold log
  split
  · split <;> exact ⟨rfl, rfl, rfl⟩
  · exact ⟨rfl, rfl, rfl⟩

/-- Without asynchronous delivery the sink is the next to see an entry that is let through. -/
theorem delivered_log (hoff : l.asynchronous = false) (e : Entry) :
    (l.log e).delivered = l.delivered ++ (if l.enabled e.level then [e] else [])
      ∧ (l.log e).inTransit = l.inTransit := by
  unfold log
  split
  · rw [hoff]
    exact ⟨l.delivered_deliver e, rfl⟩
  · exact ⟨(List.append_nil _).symm, rfl⟩

/-- **An entry that is let through is the last of those that were**, unless the queue is full. -/
theorem accepted_log (hsettled : l.asynchronous = false → l.inTransit = [])
    (hroom : l.queue.length < queueLimit) (e : Entry) :
    (l.log e).accepted = l.accepted ++ (if l.enabled e.level then [e] else []) := by
  cases hon : l.asynchronous with
  | false =>
      obtain ⟨hdelivered, htransit⟩ := delivered_log hon e
      rw [accepted, accepted, hdelivered, htransit, hsettled hon, List.append_nil, List.append_nil]
  | true =>
      -- the queue is the end of what is in transit, and nothing is dropped at its front
      unfold log
      split
      · simp [hon, accepted, delivered, inTransit, enqueue, Nat.not_le.mpr hroom]
      · exact (List.append_nil _).symm

end Logger

/-! ## What a synchronous logger delivers -/

/-- Calls that switch nothing leave a synchronous logger synchronous, and what it delivers is what
they let through. -/
theorem perform_synchronous {m : Logger} (hoff : m.asynchronous = false)
    {c : Call} (hc : c.isSwitch = false) (rest : List Call) :
    (c.perform m).asynchronous = false
      ∧ (c.perform m).delivered ++ due (c.perform m).threshold rest
        = m.delivered ++ due m.threshold (c :: rest) := by
  cases c with
  | log e =>
      obtain ⟨hdelivered, -⟩ := Logger.delivered_log hoff e
      have hsame := m.sameSettings_log e
      refine ⟨hsame.asynchronous.trans hoff, ?_⟩
      rw [Call.perform, hdelivered, hsame.threshold, due, Logger.enabled]
      by_cases hlevel : e.level.passes m.threshold = true <;> simp [hlevel]
  | threshold level => exact ⟨hoff, rfl⟩
  | format json => exact ⟨hoff, rfl⟩
  | switch on => exact absurd hc (by simp [Call.isSwitch])

theorem due_filter (calls : List Call) (threshold : Level) :
    due threshold (calls.filter fun c => !c.isSwitch) = due threshold calls := by
  induction calls generalizing threshold with
  | nil => rfl
  | cons c rest ih =>
      cases c with
      | log e => rw [List.filter_cons_of_pos rfl, due, due, ih]
      | threshold level => exact ih level
      | format json => exact ih threshold
      | switch on => exact ih threshold

/-- **Synchronous delivery is delivery of what is due.** -/
theorem delivered_synchronous (calls : List Call) :
    (synchronous calls).asynchronous = false
      ∧ (synchronous calls).delivered = due Level.info calls := by
  have hfold : ∀ (cs : List Call) (m : Logger), (∀ c ∈ cs, c.isSwitch = false) →
      m.asynchronous = false →
      (cs.foldl (fun l c => c.perform l) m).asynchronous = false
        ∧ (cs.foldl (fun l c => c.perform l) m).delivered = m.delivered ++ due m.threshold cs := by
    intro cs
    induction cs with
    | nil => exact fun m _ hoff => ⟨hoff, (List.append_nil _).symm⟩
    | cons c rest ih =>
        intro m hall hoff
        obtain ⟨hoff', hstep⟩ := perform_synchronous hoff (hall c (List.mem_cons_self ..)) rest
        obtain ⟨hend, hdelivered⟩ :=
          ih (c.perform m) (fun c' hc' => hall c' (List.mem_cons_of_mem _ hc')) hoff'
        exact ⟨hend, hdelivered.trans hstep⟩
  obtain ⟨hoff, hdelivered⟩ := hfold (calls.filter fun c => !c.isSwitch) {}
    (fun c hc => by simpa using (List.mem_filter.mp hc).2) rfl
  refine ⟨hoff, hdelivered.trans ?_⟩
  rw [due_filter]
  rfl

theorem synchronous_append (calls : List Call) (c : Call) :
    synchronous (calls ++ [c])
      = if c.isSwitch then synchronous calls else c.perform (synchronous calls) := by
  unfold synchronous
  rw [List.filter_append, List.foldl_append]
  cases hc : c.isSwitch <;> simp [hc]

/-! ## Steps -/

/-- A logger in use. -/
structure Logging where
  logger : Logger := {}
  /-- The thread is switching asynchronous delivery off and waits for the worker. -/
  stopping : Bool := false

/-- What can happen next, and the call of the thread that it is, if it is one. -/
inductive Step : Logging → Option Call → Logging → Prop where
  /-- A call during which the thread need not wait. No entry is logged that would drive another out
  of the queue. -/
  | call {l : Logger} (c : Call) (hwait : c = .switch false → l.asynchronous = false)
      (hroom : ∀ e, c = .log e → l.queue.length < queueLimit) :
      Step ⟨l, false⟩ (some c) ⟨c.perform l, false⟩
  /-- The worker is asked to stop. -/
  | stop {l : Logger} (hon : l.asynchronous = true) :
      Step ⟨l, false⟩ (some (.switch false)) ⟨l, true⟩
  /-- The worker takes an entry, also after it was asked to stop. -/
  | take {l : Logger} {stopping : Bool} (hon : l.asynchronous = true) :
      Step ⟨l, stopping⟩ none ⟨l.take, stopping⟩
  /-- The worker outputs the entry in its hand. -/
  | output {l : Logger} {stopping : Bool} (hon : l.asynchronous = true) :
      Step ⟨l, stopping⟩ none ⟨l.output, stopping⟩
  /-- The worker leaves with nothing in its hand, whatever still waits, and the thread goes on.
  Nothing can come between the two, as there is nobody else. -/
  | leave {l : Logger} (hhand : l.inHand = none) :
      Step ⟨l, true⟩ none ⟨l.setAsynchronous false, false⟩

/-- A run from one state to another, with the calls of the thread in their order. -/
inductive Run (s₀ : Logging) : List Call → Logging → Prop where
  | start : Run s₀ [] s₀
  | step {calls : List Call} {s s' : Logging} {c : Option Call} (h : Run s₀ calls s)
      (hstep : Step s c s') : Run s₀ (calls ++ c.toList) s'

variable {l : Logger} {s s' : Logging} {calls : List Call}

/-! ## Every run keeps account -/

/-- What has been let through is what the same calls make a synchronous logger deliver, and nothing
is in transit where delivery is not asynchronous. -/
structure Accounts (calls : List Call) (l : Logger) : Prop where
  threshold : l.threshold = (synchronous calls).threshold
  accepted : l.accepted = (synchronous calls).delivered
  settled : l.asynchronous = false → l.inTransit = []

namespace Accounts

/-- What the worker does keeps the account if nothing is lost. -/
theorem work {l' : Logger} (h : Accounts calls l) (hon : l.asynchronous = true)
    (haccepted : l'.accepted = l.accepted) (hsame : l.SameSettings l') : Accounts calls l' := by
  refine ⟨hsame.threshold.trans h.threshold, haccepted.trans h.accepted, fun hoff => ?_⟩
  rw [hsame.asynchronous, hon] at hoff
  exact absurd hoff (by simp)

/-- Whichever way delivery is switched, nothing is let through and nothing is lost. -/
theorem setAsynchronous (h : Accounts calls l) (on : Bool) :
    Accounts calls (l.setAsynchronous on) := by
  unfold Logger.setAsynchronous
  split
  · exact ⟨h.threshold, h.accepted, fun hoff => absurd hoff (by simp)⟩
  · split
    · obtain ⟨hdelivered, htransit, hsame⟩ := l.delivered_flush
      have haccepted : l.flush.accepted = l.accepted := by
        rw [Logger.accepted, htransit, List.append_nil, hdelivered]
      exact ⟨hsame.threshold.trans h.threshold, haccepted.trans h.accepted, fun _ => htransit⟩
    · exact h

/-- A switch is nothing to a synchronous logger. -/
theorem append_switch (h : Accounts calls l) (on : Bool) :
    Accounts (calls ++ [.switch on]) l := by
  have happend : synchronous (calls ++ [.switch on]) = synchronous calls :=
    synchronous_append calls (.switch on)
  exact ⟨by rw [happend]; exact h.threshold, by rw [happend]; exact h.accepted, h.settled⟩

/-- **A call does to the logger what it does to a synchronous one**, switches apart. -/
theorem call (h : Accounts calls l) (c : Call)
    (hroom : ∀ e, c = .log e → l.queue.length < queueLimit) :
    Accounts (calls ++ [c]) (c.perform l) := by
  obtain ⟨hsynchronous, -⟩ := delivered_synchronous calls
  have happend := synchronous_append calls c
  cases c with
  | log e =>
      have hsame := l.sameSettings_log e
      obtain ⟨hdelivered, -⟩ := Logger.delivered_log hsynchronous e
      have hlevel : l.enabled e.level = (synchronous calls).enabled e.level := by
        rw [Logger.enabled, Logger.enabled, h.threshold]
      rw [if_neg (by simp [Call.isSwitch])] at happend
      refine ⟨?_, ?_, fun hoff => ?_⟩
      · have hother := (synchronous calls).sameSettings_log e
        rw [happend]
        exact hsame.threshold.trans (h.threshold.trans hother.threshold.symm)
      · rw [happend, Call.perform, Call.perform, hdelivered,
          Logger.accepted_log h.settled (hroom e rfl) e, h.accepted, hlevel]
      · have hbefore := hsame.asynchronous.symm.trans hoff
        obtain ⟨-, htransit⟩ := Logger.delivered_log hbefore e
        exact htransit.trans (h.settled hbefore)
  | threshold level => exact ⟨by rw [happend]; rfl, by rw [happend]; exact h.accepted, h.settled⟩
  | format json =>
      exact ⟨by rw [happend]; exact h.threshold, by rw [happend]; exact h.accepted, h.settled⟩
  | switch on => exact (h.setAsynchronous on).append_switch on

/-- **A step keeps the account**, whoever takes it. -/
theorem step {c : Option Call} (h : Accounts calls s.logger) (hstep : Step s c s') :
    Accounts (calls ++ c.toList) s'.logger := by
  cases hstep with
  | call c _ hroom => exact h.call c hroom
  | stop hon => exact h.append_switch false
  | @take l _ hon =>
      obtain ⟨haccepted, hsame⟩ := l.accepted_take
      rw [Option.toList_none, List.append_nil]
      exact h.work hon haccepted hsame
  | @output l _ hon =>
      obtain ⟨haccepted, -, hsame⟩ := l.accepted_output
      rw [Option.toList_none, List.append_nil]
      exact h.work hon haccepted hsame
  | leave hhand =>
      -- what the worker has left behind is flushed
      rw [Option.toList_none, List.append_nil]
      exact h.setAsynchronous false

end Accounts

/-- **Every run keeps account**, from a logger that has done nothing yet. -/
theorem Run.accounts (h : Run {} calls s) : Accounts calls s.logger := by
  induction h with
  | start => exact ⟨rfl, rfl, fun _ => rfl⟩
  | step _ hstep ih => exact ih.step hstep

/-- **Asynchronous delivery delivers what synchronous delivery delivers.** Whenever it is off, the
sink has seen the entries that were let through, each of them once and in the order of the calls.
The lines may differ, as the format is looked at when an entry is output. -/
theorem delivers_what_is_due (h : Run {} calls s) (hoff : s.logger.asynchronous = false) :
    s.logger.delivered = due Level.info calls
      ∧ s.logger.delivered = (synchronous calls).delivered := by
  obtain ⟨-, haccepted, hsettled⟩ := h.accounts
  rw [Logger.accepted, hsettled hoff, List.append_nil] at haccepted
  obtain ⟨-, hdue⟩ := delivered_synchronous calls
  exact ⟨haccepted.trans hdue, haccepted⟩

/-- Logs a message of the thread `main`. -/
def say (level : Level) (message : String) : Call :=
  .log { level, source := generalSource, message, timestamp := 0, threadId := "main" }

/-- Delivery is switched off while one entry is in the worker's hand and another one waits; a third
was below the threshold when it was logged. -/
theorem delivered_around_a_stop :
    ∃ s, Run {} [.switch true, say .info "up", say .debug "idle", .threshold .debug,
        say .debug "busy", .switch false] s
      ∧ s.logger.asynchronous = false ∧ s.logger.delivered.map (·.message) = ["up", "busy"] := by
  have hon : Run {} [.switch true] _ :=
    .step .start (.call (.switch true) (by simp) fun _ _ => by decide)
  have hup : Run {} [.switch true, say .info "up"] _ :=
    hon.step (.call (say .info "up") (by simp [say]) fun _ _ => by decide)
  have htaken : Run {} [.switch true, say .info "up"] _ := hup.step (.take rfl)
  have hidle : Run {} [.switch true, say .info "up", say .debug "idle"] _ :=
    htaken.step (.call (say .debug "idle") (by simp [say]) fun _ _ => by decide)
  have hlevel : Run {} [.switch true, say .info "up", say .debug "idle", .threshold .debug] _ :=
    hidle.step (.call (.threshold .debug) (by simp) fun _ _ => by decide)
  have hbusy : Run {} [.switch true, say .info "up", say .debug "idle", .threshold .debug,
      say .debug "busy"] _ :=
    hlevel.step (.call (say .debug "busy") (by simp [say]) fun _ _ => by decide)
  have hstop : Run {} [.switch true, say .info "up", say .debug "idle", .threshold .debug,
      say .debug "busy", .switch false] _ := hbusy.step (.stop rfl)
  have hoff := (hstop.step (.output rfl)).step (.leave rfl)
  obtain ⟨hdue, -⟩ := delivers_what_is_due hoff rfl
  exact ⟨_, hoff, rfl, by rw [hdue]; decide⟩

/-! ## Switching off -/

/-- What the worker does before it leaves, the flush would have done after it. -/
theorem Logger.flush_take (l : Logger) : l.take.flush = l.flush := by
  unfold take
  split
  · rename_i e rest hhand hqueue
    simp only [flush, foldl_deliver, output, hhand, hqueue, deliver, List.map_cons,
      List.reverse_cons, List.append_assoc, List.singleton_append]
    rfl
  · rfl

theorem Logger.flush_output (l : Logger) : l.output.flush = l.flush := by
  obtain ⟨-, hhand, -⟩ := l.accepted_output
  have hagain : l.output.output = l.output := by
    rw [output, hhand]
  rw [flush, hagain]
  rfl

theorem Logger.setAsynchronous_false (hon : l.asynchronous = true) :
    l.setAsynchronous false = { l.flush with asynchronous := false } := by
  simp [setAsynchronous, hon]

/-- While the thread waits for the worker, switching off would always come to the same. -/
theorem Run.stopping_or_off (hon : l.asynchronous = true) (h : Run ⟨l, true⟩ calls s)
    (hcalls : calls = []) :
    (s.stopping = true ∧ s.logger.asynchronous = true ∧ s.logger.flush = l.flush)
      ∨ s = ⟨l.setAsynchronous false, false⟩ := by
  induction h with
  | start => exact Or.inl ⟨rfl, hon, rfl⟩
  | step _ hstep ih =>
      obtain ⟨hbefore, hnone⟩ := List.append_eq_nil_iff.mp hcalls
      rcases ih hbefore with ⟨hstopping, hstill, hflush⟩ | rfl
      · cases hstep with
        | call => exact absurd hnone (by simp)
        | stop => exact absurd hnone (by simp)
        | @take l' =>
            obtain ⟨-, hsame⟩ := l'.accepted_take
            exact Or.inl ⟨hstopping, hsame.asynchronous.trans hstill, l'.flush_take.trans hflush⟩
        | @output l' =>
            obtain ⟨-, -, hsame⟩ := l'.accepted_output
            exact Or.inl ⟨hstopping, hsame.asynchronous.trans hstill, l'.flush_output.trans hflush⟩
        | leave =>
            rw [Logger.setAsynchronous_false hstill, Logger.setAsynchronous_false hon, hflush]
            exact Or.inr rfl
      · -- there is no worker any more
        have hoff : (l.setAsynchronous false).asynchronous = false := by
          rw [Logger.setAsynchronous_false hon]
        cases hstep with
        | call => exact absurd hnone (by simp)
        | stop => exact absurd hnone (by simp)
        | take hstill => exact absurd (hstill.symm.trans hoff) (by simp)
        | output hstill => exact absurd (hstill.symm.trans hoff) (by simp)

/-- Once the worker has output what is in its hand, it can leave. -/
theorem Run.leave {s₀ : Logging} (h : Run s₀ calls ⟨l, true⟩) (hon : l.asynchronous = true) :
    Run s₀ calls ⟨l.setAsynchronous false, false⟩ := by
  obtain ⟨-, hhand, hsame⟩ := l.accepted_output
  have hleft : l.output.setAsynchronous false = l.setAsynchronous false := by
    rw [Logger.setAsynchronous_false hon,
      Logger.setAsynchronous_false (hsame.asynchronous.trans hon), l.flush_output]
  have houtput : Run s₀ (calls ++ []) ⟨l.output, true⟩ := h.step (.output hon)
  have hleave := houtput.step (.leave hhand)
  rw [hleft] at hleave
  simpa using hleave

/-- **Asynchronous delivery can be switched off at any time.** -/
theorem Run.switch_off {s₀ : Logging} (h : Run s₀ calls ⟨l, false⟩) :
    Run s₀ (calls ++ [.switch false]) ⟨l.setAsynchronous false, false⟩ := by
  cases hon : l.asynchronous with
  | true => exact (h.step (.stop hon)).leave hon
  | false => exact h.step (.call (.switch false) (fun _ => hon) fun _ hlog => by simp at hlog)

/-- **However long the worker takes to leave, switching off is what it is without a worker.** -/
theorem Run.stopped (hon : l.asynchronous = true) (h : Run ⟨l, true⟩ [] s)
    (hdone : s.stopping = false) : s.logger = l.setAsynchronous false := by
  rcases h.stopping_or_off hon rfl with ⟨hstopping, -⟩ | rfl
  · exact absurd (hstopping.symm.trans hdone) (by simp)
  · rfl

end FleetScaler.Log
