import Mathlib.Data.List.Chain
import Mathlib.Data.List.Induction
import FleetScaler.Proofs.Membership.Emission

/-!
# What a member hears of its session

The events `connected` and `disconnected` that a member is given to hear tell it whether its session
is up. A member that starts is told that it is connected even if its session has been lost before;
it hears nothing else until the session comes back, and from there on it is told the truth like
everybody else.

`Tells` is the stream of events that tells the truth: it begins with `connected`, the news of the
session alternate, and `changed` is heard only while the session is up.
-/

namespace FleetScaler

variable {κ : Type}

/-! ## Truthful streams -/

/-- Some events tell the truth about a session that is in the end up or lost. -/
inductive Tells : Bool → List GroupEvent → Prop where
  | begins : Tells true [.connected]
  | changed {events : List GroupEvent} (before : Tells true events) :
      Tells true (events ++ [.changed])
  | session {up : Bool} {events : List GroupEvent} (before : Tells up events) :
      Tells (!up) (events ++ [.ofSession (!up)])

/-- The news of the session among some events. -/
def sessionNews (events : List GroupEvent) : List GroupEvent :=
  events.filter fun event => event = .connected ∨ event = .disconnected

theorem sessionNews_append (events later : List GroupEvent) :
    sessionNews (events ++ later) = sessionNews events ++ sessionNews later :=
  List.filter_append ..

@[simp] theorem sessionNews_ofSession (up : Bool) :
    sessionNews [.ofSession up] = [.ofSession up] := by
  cases up <;> rfl

theorem sessionNews_changed (events : List GroupEvent) :
    sessionNews (events ++ [.changed]) = sessionNews events := by
  simp [sessionNews]

/-- What an elector makes of some events, one after the other. -/
def Elector.hearAll {γ : Type} (e : Elector γ) (memberId : String) (events : List GroupEvent) :
    Elector γ :=
  events.foldl (fun e event => (e.hear memberId event).2) e

@[simp] theorem Elector.connected_hearAll {γ : Type} (e : Elector γ) (memberId : String)
    (events : List GroupEvent) (event : GroupEvent) :
    (e.hearAll memberId (events ++ [event])).connected = event.up := by
  rw [hearAll, List.foldl_concat, connected_hear]

@[simp] theorem GroupEvent.up_ofSession (up : Bool) : (ofSession up).up = up := by
  cases up <;> rfl

/-- Some events tell whether a session is up or lost: the last news are true and no news come twice
in a row, and so an elector that has heard everything believes the truth. -/
structure Truthful (up : Bool) (events : List GroupEvent) : Prop where
  last : (sessionNews events).getLast? = some (.ofSession up)
  alternate : (sessionNews events).IsChain (· ≠ ·)
  believed : ∀ {γ : Type} (e : Elector γ) (memberId : String),
    (e.hearAll memberId events).connected = up

namespace Tells

variable {up : Bool} {events : List GroupEvent}

/-- The last news are true. -/
theorem getLast? (h : Tells up events) :
    (sessionNews events).getLast? = some (.ofSession up) := by
  induction h with
  | begins => rfl
  | changed before ih => rw [sessionNews_changed, ih]
  | session before ih => rw [sessionNews_append, sessionNews_ofSession, List.getLast?_concat]

/-- No news come twice in a row. -/
theorem alternate (h : Tells up events) : (sessionNews events).IsChain (· ≠ ·) := by
  induction h with
  | begins => exact .singleton _
  | changed before ih => rwa [sessionNews_changed]
  | @session up _ before ih =>
      rw [sessionNews_append, sessionNews_ofSession]
      refine List.isChain_append.mpr ⟨ih, .singleton _, ?_⟩
      intro x hx y hy
      rw [before.getLast?] at hx
      obtain rfl := Option.mem_some_iff.mp hx
      obtain rfl := Option.mem_some_iff.mp hy
      cases up <;> simp [GroupEvent.ofSession]

/-- The first of them is that the session is up. -/
theorem head? (h : Tells up events) : events.head? = some .connected := by
  induction h with
  | begins => rfl
  | changed before ih => rw [List.head?_append, ih]; rfl
  | session before ih => rw [List.head?_append, ih]; rfl

/-- Whoever has heard all of it believes the truth. -/
theorem believed (h : Tells up events) {γ : Type} (e : Elector γ) (memberId : String) :
    (e.hearAll memberId events).connected = up := by
  cases h with
  | begins => exact Elector.connected_hear e memberId .connected
  | changed before => exact Elector.connected_hearAll ..
  | session before => rw [Elector.connected_hearAll, GroupEvent.up_ofSession]

theorem truthful (h : Tells up events) : Truthful up events := ⟨h.getLast?, h.alternate, h.believed⟩

end Tells

namespace Coordination

variable {s : Coordination κ} {r : Request} {n : Nat} {m m' : Member κ}

/-! ## When a session comes back -/

/-- The return of the session of an id takes effect, on the member with the number `n`. -/
def Regains (s : Coordination κ) (id : String) (n : Nat) : Prop :=
  s.number? id = some n ∧ (s.reconnect id).1 = true

/-- Among some calls is one by which the session of the member with the number `n` comes back. -/
def ComesBack (s : Coordination κ) (n : Nat) (calls : List Request) : Prop :=
  ∃ before id after, calls = before ++ .reconnect id :: after ∧ (s.serveAll before).Regains id n

theorem serveAll_append (s : Coordination κ) (calls later : List Request) :
    s.serveAll (calls ++ later) = (s.serveAll calls).serveAll later := List.foldl_append ..

theorem serveAll_concat (s : Coordination κ) (calls : List Request) (r : Request) :
    s.serveAll (calls ++ [r]) = (s.serveAll calls).serve r := List.foldl_concat ..

theorem orderly_serveAll (calls : List Request) :
    Orderly (serveAll ({} : Coordination κ) calls) :=
  (serves_serveAll calls serves_empty orderly_empty).2

/-- The turn of a member whose session does not come back by it brings nobody's back. -/
theorem Turn.connected_of {s' : Coordination κ} {k : Nat} {x x' : Member κ} (t : Turn s s' k x x')
    (hx : x'.connected = true → x.connected = true) (hm : s.members[n]? = some m)
    (hm' : s'.members[n]? = some m') (hu : m'.connected = true) : m.connected = true := by
  rcases t.member hm' with ⟨rfl, rfl⟩ | ⟨_, y, hy, rfl⟩
  · obtain rfl := Option.some.inj (hm.symm.trans t.found)
    exact hx hu
  · obtain rfl := Option.some.inj (hm.symm.trans hy)
    rwa [Member.hearChange_connected] at hu

/-- A member whose session is lost before a call and up after it has got it back by a reconnect. -/
theorem regains_of_up (hm : s.members[n]? = some m) (hm' : (s.serve r).members[n]? = some m')
    (hd : m.connected = false) (hu : m'.connected = true) :
    ∃ id, r = .reconnect id ∧ s.Regains id n := by
  have other : m.connected = true → ∃ id, r = .reconnect id ∧ s.Regains id n :=
    fun h => absurd (hd.symm.trans h) (by simp)
  have same : s.serve r = s → ∃ id, r = .reconnect id ∧ s.Regains id n := by
    intro he
    rw [he] at hm'
    exact other (Option.some.inj (hm'.symm.trans hm) ▸ hu)
  cases r with
  | join path nodeType =>
      have hold := (idles_join s path nodeType).members n m hm
      exact other (Option.some.inj (hm'.symm.trans hold) ▸ hu)
  | start k =>
      rcases start_cases s k with ⟨x, _, t, _⟩ | ⟨he, _⟩
      · exact other (t.connected_of (by simp [Member.begun]) hm hm' hu)
      · exact same he
  | close k =>
      rcases close_cases s k with ⟨x, t, _⟩ | ⟨he, _⟩
      · exact other (t.connected_of id hm hm' hu)
      · exact same he
  | disconnect id =>
      rcases disconnect_cases s id with ⟨k, x, _, _, t, _⟩ | ⟨he, _⟩
      · exact other (t.connected_of (by simp [Member.cutOff]) hm hm' hu)
      · exact same (congrArg Prod.snd he)
  | reconnect id =>
      rcases reconnect_cases s id with ⟨k, x, hk, _, t, _, ha⟩ | ⟨he, _⟩
      · refine ⟨id, rfl, ?_, ha⟩
        -- nobody's session comes back by the turn of another
        rcases t.member hm' with ⟨rfl, _⟩ | ⟨_, y, hy, rfl⟩
        · exact hk
        · obtain rfl := Option.some.inj (hm.symm.trans hy)
          exact absurd (hd.symm.trans (by simpa using hu)) (by simp)
      · exact same (congrArg Prod.snd he)

/-- **The session of a member comes back by a call** exactly if the call is a reconnect that takes
effect on it. -/
theorem regains_iff (hm : s.members[n]? = some m) (hm' : (s.serve r).members[n]? = some m') :
    (∃ id, r = .reconnect id ∧ s.Regains id n) ↔ m.connected = false ∧ m'.connected = true := by
  constructor
  · rintro ⟨id, rfl, hn, ha⟩
    rcases reconnect_cases s id with ⟨k, x, hk, hd, t, _, _⟩ | ⟨he, _⟩
    · obtain rfl := Option.some.inj (hn.symm.trans hk)
      obtain rfl := Option.some.inj (hm.symm.trans t.found)
      obtain rfl := Option.some.inj (hm'.symm.trans t.self)
      exact ⟨hd, by simp [Member.back]⟩
    · rw [he] at ha
      exact absurd ha (by simp)
  · rintro ⟨hd, hu⟩
    exact regains_of_up hm hm' hd hu

theorem not_comesBack_nil (s : Coordination κ) (n : Nat) : ¬ ComesBack s n [] := by
  rintro ⟨before, id, after, hsplit, _⟩
  exact absurd hsplit (by simp)

/-- A session comes back among some calls or by the one after them. -/
theorem comesBack_concat {calls : List Request} :
    ComesBack s n (calls ++ [r])
      ↔ ComesBack s n calls ∨ ∃ id, r = .reconnect id ∧ (s.serveAll calls).Regains id n := by
  constructor
  · rintro ⟨before, id, after, hsplit, hback⟩
    rcases List.eq_nil_or_concat after with rfl | ⟨after, last, rfl⟩
    · obtain ⟨rfl, hr⟩ := List.append_inj' hsplit rfl
      exact Or.inr ⟨id, List.cons.inj hr |>.1, hback⟩
    · rw [List.concat_eq_append, ← List.cons_append, ← List.append_assoc] at hsplit
      exact Or.inl ⟨before, id, after, (List.append_inj' hsplit rfl).1, hback⟩
  · rintro (⟨before, id, after, rfl, hback⟩ | ⟨id, rfl, hback⟩)
    · exact ⟨before, id, after ++ [r], by simp, hback⟩
    · exact ⟨calls, id, [], rfl, hback⟩

/-! ## What a call tells a member -/

/-- What a call `r` tells the open member with the number `n`. -/
inductive Learns (r : Request) (n : Nat) (m m' : Member κ) : List GroupEvent → Prop where
  /-- A member that has not started is told nothing. -/
  | unstarted (before : m.started = false) (after : m'.started = false) : Learns r n m m' []
  /-- A member that starts is told that it is connected, whether its session is up or not. -/
  | starts (call : r = .start n) (before : m.started = false) (after : m'.started = true)
      (same : m'.connected = m.connected) : Learns r n m m' [.connected]
  | nothing (before : m.started = true) (after : m'.started = true)
      (same : m'.connected = m.connected) : Learns r n m m' []
  | changed (before : m.started = true) (after : m'.started = true)
      (up : m.connected = true) (up' : m'.connected = true) : Learns r n m m' [.changed]
  | session (before : m.started = true) (after : m'.started = true)
      (turned : m'.connected = !m.connected) : Learns r n m m' [.ofSession m'.connected]

/-- It is the call of a start that a member starts by. -/
theorem eq_start_of_turnOf? {k : Nat} {own : Option GroupEvent} (hr : s.turnOf? r = some (k, own))
    (hm : s.members[k]? = some m) (hs : m.started = false) (hown : own = some .connected) :
    r = .start k := by
  subst hown
  cases r with
  | join path nodeType => simp [turnOf?] at hr
  | start j =>
      simp only [turnOf?, Option.bind_eq_some_iff] at hr
      obtain ⟨x, _, hx⟩ := hr
      split at hx
      · exact absurd hx (by simp)
      · exact congrArg Request.start (Prod.mk.inj (Option.some.inj hx)).1
  | close j => simp [turnOf?, Option.bind_eq_some_iff] at hr
  | disconnect id =>
      simp only [turnOf?, Option.bind_eq_some_iff] at hr
      obtain ⟨j, _, x, hx, hr⟩ := hr
      split at hr
      · simp only [Option.some.injEq, Prod.mk.injEq] at hr
        obtain ⟨rfl, ho⟩ := hr
        obtain rfl := Option.some.inj (hm.symm.trans hx)
        simp [hs] at ho
      · exact absurd hr (by simp)
  | reconnect id =>
      simp only [turnOf?, Option.bind_eq_some_iff] at hr
      obtain ⟨j, _, x, hx, hr⟩ := hr
      split at hr
      · exact absurd hr (by simp)
      · simp only [Option.some.injEq, Prod.mk.injEq] at hr
        obtain ⟨rfl, ho⟩ := hr
        obtain rfl := Option.some.inj (hm.symm.trans hx)
        simp [hs] at ho

/-- **What a call tells a member that it leaves open.** -/
theorem learns (r : Request) (hm : s.members[n]? = some m)
    (hm' : (s.serve r).members[n]? = some m') (hc : m'.closed = false) :
    Learns r n m m' (s.events r n) := by
  rcases turnOf?_cases s r with ⟨hr, hsame, _⟩ | ⟨k, own, x, x', hr, t, takes⟩
  · obtain rfl := Option.some.inj ((hsame n m hm).symm.trans hm')
    have hnone : s.events r n = [] := by simp [events, hr]
    rw [hnone]
    cases hs : m.started with
    | false => exact .unstarted hs hs
    | true => exact .nothing hs hs rfl
  · rcases t.member hm' with ⟨rfl, rfl⟩ | ⟨hn, y, hy, rfl⟩
    · obtain rfl := Option.some.inj (hm.symm.trans t.found)
      have hown : s.events r n = own.toList := by simp [events, hr]
      rw [hown]
      cases hs : m.started with
      | false =>
          cases hs' : m'.started with
          | false =>
              rw [(takes.unstarted hs').1]
              exact .unstarted hs hs'
          | true =>
              obtain ⟨ho, hu⟩ := takes.starts hs hs'
              rw [ho]
              exact .starts (eq_start_of_turnOf? hr hm hs ho) hs hs' hu
      | true =>
          obtain ⟨ho, hu⟩ := takes.session hs hc
          have hs' : m'.started = true := by
            cases h : m'.started with
            | true => rfl
            | false => exact absurd (hs.symm.trans (takes.unstarted h).2) (by simp)
          rw [ho]
          exact .session hs hs' hu
    · obtain rfl := Option.some.inj (hm.symm.trans hy)
      rw [events_of_turn hr t.found hn hm]
      split
      · rename_i hline
        have hs := started_of_inLine hline.2
        have hu : m.connected = true := by
          have := hline.2
          simp only [Member.inLine, Bool.and_eq_true] at this
          exact this.1.2
        exact .changed hs (by simp [hs]) hu (by simp [hu])
      · cases hs : m.started with
        | false => exact .unstarted hs (by simp [hs])
        | true => exact .nothing hs (by simp [hs]) (by simp)

/-! ## What a run tells a member -/

/-- Some events are what a member hears of a session that was up or lost when the member started,
has come back since then or not, and is up or lost in the end. -/
inductive TellsFrom (returned : Prop) : Bool → Bool → List GroupEvent → Prop where
  | up {up : Bool} {events : List GroupEvent} (all : Tells up events) :
      TellsFrom returned true up events
  /-- The session has not come back yet. -/
  | lost (away : ¬ returned) : TellsFrom returned false false [.connected]
  /-- The truth is told from the first return of the session on. -/
  | back {up : Bool} {later : List GroupEvent} (since : returned) (all : Tells up later) :
      TellsFrom returned false up (.connected :: later)

theorem tellsFrom_start {returned : Prop} (up : Bool) (away : ¬ returned) :
    TellsFrom returned up up [.connected] := by
  cases up with
  | true => exact .up .begins
  | false => exact .lost away

theorem Learns.tells {events queue : List GroupEvent} (h : Learns r n m m' events)
    (hs : m.started = true) (ht : Tells m.connected queue) :
    Tells m'.connected (queue ++ events) := by
  cases h with
  | unstarted before => exact absurd (hs.symm.trans before) (by simp)
  | starts _ before => exact absurd (hs.symm.trans before) (by simp)
  | nothing _ _ same => rwa [List.append_nil, same]
  | changed _ _ up up' =>
      rw [up] at ht
      rw [up']
      exact ht.changed
  | session _ _ turned =>
      rw [turned]
      exact ht.session

theorem Learns.tellsFrom {up : Bool} {events queue : List GroupEvent} {returned returned' : Prop}
    (h : Learns r n m m' events) (hs : m.started = true)
    (hreturned : returned' ↔ returned ∨ (m.connected = false ∧ m'.connected = true))
    (ht : TellsFrom returned up m.connected queue) :
    TellsFrom returned' up m'.connected (queue ++ events) := by
  generalize hu : m.connected = u at ht
  cases ht with
  | up all => exact .up (h.tells hs (hu ▸ all))
  | back since all => exact .back (hreturned.mpr (Or.inl since)) (h.tells hs (hu ▸ all))
  | lost away =>
      cases h with
      | unstarted before => exact absurd (hs.symm.trans before) (by simp)
      | starts _ before => exact absurd (hs.symm.trans before) (by simp)
      | nothing _ _ same =>
          rw [same, hu]
          exact .lost fun h => (hreturned.mp h).elim away (by simp [same, hu])
      | changed _ _ up => exact absurd (hu.symm.trans up) (by simp)
      | session _ _ turned =>
          -- a session that is lost can only come back
          rw [turned, hu]
          exact .back (hreturned.mpr (Or.inr ⟨hu, by simp [turned, hu]⟩)) .begins

/-- A member has heard nothing before its start, and since then what `TellsFrom` says. -/
theorem tellsFrom_serveAll (requests : List Request) {m : Member κ}
    (hm : (serveAll {} requests).members[n]? = some m) (hc : m.closed = false) :
    (m.started = false → m.queue = []) ∧
    (m.started = true → ∃ before after m₀, requests = before ++ .start n :: after ∧
      (serveAll ({} : Coordination κ) before).members[n]? = some m₀ ∧ m₀.started = false ∧
      TellsFrom (ComesBack (serveAll ({} : Coordination κ) (before ++ [.start n])) n after)
        m₀.connected m.connected m.queue) := by
  induction requests using List.reverseRecOn generalizing m with
  | nil => exact absurd hm (by simp [serveAll])
  | append_singleton requests r ih =>
      -- what the last call queues is told by the standings that the calls before it have led to
      rw [serveAll_concat] at hm
      have ho : Orderly (serveAll ({} : Coordination κ) requests) := orderly_serveAll requests
      cases hx : (serveAll ({} : Coordination κ) requests).members[n]? with
      | none =>
          obtain ⟨hq, hs, _⟩ := queue_newcomer r hx hm
          exact ⟨fun _ => hq, fun hs' => absurd (hs.symm.trans hs') (by simp)⟩
      | some x =>
          obtain ⟨m', hm', served⟩ := served ho r hx
          obtain rfl := Option.some.inj (hm.symm.trans hm')
          rcases served.queue with ⟨hxc, hq⟩ | ⟨_, hgone, _⟩
          · obtain ⟨hidle, hsince⟩ := ih hx (hxc.symm.trans hc)
            have hl := learns r hx hm hc
            rw [hq]
            cases hxs : x.started with
            | true =>
                obtain ⟨before, after, m₀, hsplit, hm₀, hs₀, htells⟩ := hsince hxs
                refine ⟨fun hs => ?_, fun _ => ?_⟩
                · exact absurd (hs.symm.trans (served.started hxs)) (by simp)
                · refine ⟨before, after ++ [r], m₀, by simp [hsplit], hm₀, hs₀,
                    hl.tellsFrom hxs ?_ htells⟩
                  rw [comesBack_concat, ← serveAll_append, List.append_assoc,
                    List.singleton_append, ← hsplit, regains_iff hx hm]
            | false =>
                rw [hidle hxs, List.nil_append]
                generalize (serveAll ({} : Coordination κ) requests).events r n = events at hl
                cases hl with
                | unstarted _ after =>
                    exact ⟨fun _ => rfl, fun hs => absurd (after.symm.trans hs) (by simp)⟩
                | starts call before after same =>
                    refine ⟨fun hs => absurd (hs.symm.trans after) (by simp), fun _ => ?_⟩
                    refine ⟨requests, [], x, by rw [call], hx, before, ?_⟩
                    rw [same]
                    exact tellsFrom_start x.connected (not_comesBack_nil _ n)
                | nothing before => exact absurd (hxs.symm.trans before) (by simp)
                | changed before => exact absurd (hxs.symm.trans before) (by simp)
                | session before => exact absurd (hxs.symm.trans before) (by simp)
          · -- a member that the call closes is not open in the end
            exact absurd (hgone ▸ hc) (by simp [Member.gone])

/-- Whoever is to hear of a change is in line before and after the call. -/
theorem Learns.up_of_changed {events : List GroupEvent} (h : Learns r n m m' events)
    (hin : .changed ∈ events) : m.connected = true ∧ m'.connected = true := by
  cases h with
  | unstarted => exact absurd hin (by simp)
  | starts => exact absurd hin (by simp)
  | nothing => exact absurd hin (by simp)
  | changed _ _ up up' => exact ⟨up, up'⟩
  | session =>
      rw [List.mem_singleton] at hin
      cases hu : m'.connected <;> simp [hu, GroupEvent.ofSession] at hin

/-- A closed member stays closed. -/
theorem closed_serveAll (ho : Orderly s) (hm : s.members[n]? = some m) (hc : m.closed = true)
    (requests : List Request) (hm' : (s.serveAll requests).members[n]? = some m') :
    m'.closed = true := by
  induction requests generalizing s m with
  | nil =>
      obtain rfl := Option.some.inj (hm.symm.trans hm')
      exact hc
  | cons r requests ih =>
      obtain ⟨m₁, hm₁, served⟩ := served ho r hm
      refine ih (orderly_serve ho r) hm₁ ?_ hm'
      rcases served.queue with ⟨hsame, _⟩ | ⟨hopen, _, _⟩
      · rw [hsame, hc]
      · exact absurd (hc.symm.trans hopen) (by simp)

/-! ## All of it -/

/-- **Events tell the truth about a session**, but for one case. An open member that has started did
so by a certain call. If its session was up then, all that it has been given to hear since tells the
truth. If its session was lost then, it was told `connected` all the same, which is wrong until the
session comes back for the first time. It hears nothing else before that, and what it hears from
there on begins with `connected` and tells the truth. It was to hear of changes only while its
session was up. -/
theorem session_is_told (requests : List Request) {m : Member κ}
    (hm : (serveAll {} requests).members[n]? = some m) (hc : m.closed = false)
    (hs : m.started = true) :
    (∃ before after m₀, requests = before ++ .start n :: after ∧
      (serveAll ({} : Coordination κ) before).members[n]? = some m₀ ∧ m₀.started = false ∧
      (m₀.connected = true → Truthful m.connected m.queue) ∧
      (m₀.connected = false → ∃ later, m.queue = .connected :: later ∧
        (later ≠ [] ↔ ComesBack (serveAll ({} : Coordination κ) (before ++ [.start n])) n after) ∧
        (later = [] → m.connected = false) ∧
        (later ≠ [] → later.head? = some .connected ∧ Truthful m.connected later ∧
          ∀ {γ : Type} (e : Elector γ) (memberId : String),
            (e.hearAll memberId m.queue).connected = m.connected))) ∧
    ∀ before r after x, requests = before ++ r :: after →
      (serveAll ({} : Coordination κ) before).members[n]? = some x →
      ∃ x' events, (serveAll ({} : Coordination κ) (before ++ [r])).members[n]? = some x' ∧
        x'.queue = x.queue ++ events ∧
        (.changed ∈ events → x.connected = true ∧ x'.connected = true) := by
  constructor
  · obtain ⟨before, after, m₀, hsplit, hm₀, hs₀, htells⟩ := (tellsFrom_serveAll requests hm hc).2 hs
    refine ⟨before, after, m₀, hsplit, hm₀, hs₀, ?_⟩
    generalize m₀.connected = up at htells
    generalize m.queue = queue at htells
    generalize m.connected = now at htells
    cases htells with
    | up all => exact ⟨fun _ => all.truthful, fun h => absurd h (by simp)⟩
    | lost away =>
        refine ⟨fun h => absurd h (by simp), fun _ => ⟨[], rfl, ?_, fun _ => rfl, ?_⟩⟩
        · exact ⟨fun h => absurd rfl h, fun h => absurd h away⟩
        · exact fun h => absurd rfl h
    | @back _ later since all =>
        have hlater : later ≠ [] := by
          rintro rfl
          exact absurd all.head? (by simp)
        refine ⟨fun h => absurd h (by simp), fun _ => ⟨later, rfl, ?_, fun h => ?_, fun _ => ?_⟩⟩
        · exact ⟨fun _ => since, fun _ => hlater⟩
        · exact absurd h hlater
        · exact ⟨all.head?, all.truthful, fun e memberId => all.believed _ memberId⟩
  · intro before r after x hsplit hx
    have ho : Orderly (serveAll ({} : Coordination κ) before) := orderly_serveAll before
    obtain ⟨x', hx', served⟩ := served ho r hx
    -- the member is open in the end, so the call has not closed it
    have hc' : x'.closed = false := by
      refine Bool.eq_false_iff.mpr fun hclosed => ?_
      rw [hsplit, List.append_cons, serveAll_append, serveAll_concat] at hm
      have hend := closed_serveAll (orderly_serve ho r) hx' hclosed after hm
      exact absurd (hc.symm.trans hend) (by simp)
    rcases served.queue with ⟨_, hq⟩ | ⟨_, hgone, _⟩
    · rw [serveAll_concat]
      exact ⟨x', _, hx', hq, (learns r hx hx' hc').up_of_changed⟩
    · exact absurd (hgone ▸ hc') (by simp [Member.gone])

/-- A member whose session has been lost before its start is told that it is connected. -/
theorem session_is_told_wrong : ¬ ∀ (requests : List Request) (n : Nat) (m : Member Nat),
    (serveAll {} requests).members[n]? = some m → m.closed = false → m.started = true →
    Truthful m.connected m.queue := by
  intro h
  have hlast := (h [.join "/g" "n", .disconnect "/g/n-0", .start 0] 0 _ rfl rfl rfl).last
  exact absurd hlast (by decide)

/-- An elector that has heard all of a session that was lost before the start, came back and was
lost again believes that it is lost. -/
theorem session_is_told_twice :
    ((serveAll ({} : Coordination Nat) [.join "/g" "n", .disconnect "/g/n-0", .start 0,
      .reconnect "/g/n-0", .disconnect "/g/n-0"]).members[0]?).map (·.queue)
        = some [.connected, .connected, .disconnected] ∧
    ∀ (e : Elector Nat) (memberId : String),
      (e.hearAll memberId [.connected, .connected, .disconnected]).connected = false := by
  refine ⟨rfl, fun e memberId => ?_⟩
  obtain ⟨_, _, m₀, _, _, _, hup, hlost⟩ := (@session_is_told Nat 0
    [.join "/g" "n", .disconnect "/g/n-0", .start 0, .reconnect "/g/n-0", .disconnect "/g/n-0"] _
    rfl rfl rfl).1
  cases hu : m₀.connected with
  | true => exact (hup hu).believed e memberId
  | false =>
      obtain ⟨later, hq, _, _, htold⟩ := hlost hu
      refine (htold ?_).2.2 e memberId
      rintro rfl
      exact absurd hq (by decide)

end Coordination

end FleetScaler
