import FleetScaler.Proofs.Controller.Part
import FleetScaler.Proofs.Fleet.Run
import FleetScaler.Proofs.Membership.News

/-!
# Controllers that are abreast of their services

A controller learns of its part by events, which may lag behind what has happened meanwhile.
`Seated` says how far behind it may be. While events are waiting for its member, the last of them
tells whether the session is up, so whoever hears it comes to show the right part; and when none is
waiting, the controller shows that part already.

What others do leaves a controller abreast, because a member whose part may have changed is told of
it, and then an event is waiting. `current_of_minds` turns this into what remains to be said about a
step: what it means to the one controller whose business it is.
-/

namespace FleetScaler

open Coordination Controller

/-- Where a controller is to work, and with what settings. -/
structure Post where
  settings : Settings := {}
  /-- The number of its coordination service. -/
  service : Nat
  /-- The number of the site that it keeps. -/
  site : Nat
  deriving DecidableEq, Repr

/-- The controller has its post: the capabilities that the post names are bound to it. -/
structure Controller.At (c : Controller) (p : Post) : Prop where
  settings : c.settings = p.settings
  coordination : c.coordination.value = some p.service
  cluster : c.cluster.value = some p.site

namespace Fleet

variable {f f' : Fleet} {k : Nat} {p : Post}

/-- The site with the number `i` calls the controller `k`. -/
def Calls (f : Fleet) (i k : Nat) : Prop := k ∈ (f.sites.get i).store.callbacks

/-- The controller `k` stands for the member `m`, with the number `n`, of the service of its
post, and what it shows is no more behind than the events that are waiting. -/
structure Seated (f : Fleet) (k : Nat) (p : Post) (seat : Candidacy) (n : Nat) (m : Member Nat) :
    Prop where
  candidacy : (f.controller k).candidacy = some seat
  service : seat.service = p.service
  group : seat.elector.group = some n
  callable : (f.controller k).callable = true
  /-- No site but that of the post calls the controller. -/
  only : ∀ i, f.Calls i k → i = p.site
  found : (f.services.get p.service).members[n]? = some m
  isOpen : m.closed = false
  started : m.started = true
  path : m.path = p.settings.groupPath
  listeners : m.listeners = [k]
  /-- The last event that is waiting tells whether the session is up. -/
  last : ∀ event, m.queue.getLast? = some event → event.up = m.connected
  /-- If none is waiting, the controller shows the part that is assigned to it. -/
  heard : m.queue = [] → seat.elector.connected = m.connected ∧
    (f.controller k).Shows f.toSurroundings
      (assigned m.connected ((f.services.get p.service).isMaster n))

/-- The controller `k` is at its post, and either inactive or up to the events that are waiting. -/
structure Abreast (f : Fleet) (k : Nat) (p : Post) : Prop where
  post : (f.controller k).At p
  part : ((f.controller k).candidacy = none ∧
      (f.controller k).Shows f.toSurroundings .unknown) ∨
    ∃ seat n m, Seated f k p seat n m

/-- Every controller is abreast, and every member is that of a controller or closed for good. -/
structure Current (posts : List Post) (f : Fleet) : Prop where
  orderly : ∀ i, Orderly (f.services.get i)
  abreast : ∀ k p, posts[k]? = some p → Abreast f k p
  /-- A number without a post has nothing bound to it. -/
  vacant : ∀ k, posts[k]? = none →
    (f.controller k).candidacy = none ∧ (f.controller k).coordination.value = none
  owned : ∀ (i n : Nat) (m : Member Nat), (f.services.get i).members[n]? = some m →
    m.closed = false → ∃ k p seat, posts[k]? = some p ∧ p.service = i ∧ Seated f k p seat n m
  silent : ∀ (i n : Nat) (m : Member Nat), (f.services.get i).members[n]? = some m →
    m.closed = true → m.queue = []

/-! ## What others do -/

theorem shows_of_alike (ha : Alike (f.controller k) (f'.controller k))
    (hc : ∀ i, f'.Calls i k ↔ f.Calls i k) {part : ControllerState}
    (h : (f.controller k).Shows f.toSurroundings part) :
    (f'.controller k).Shows f'.toSurroundings part where
  state := ha.state.trans h.state
  timer hp := ha.timer.trans (h.timer hp)
  tracked i := by
    rw [ha.cluster, ← h.tracked i]
    exact hc i

/-- **What others do leaves a controller abreast**, since its member hears of it. -/
theorem Seated.hears {seat : Candidacy} {n : Nat} {m m' : Member Nat} (h : Seated f k p seat n m)
    (ha : Alike (f.controller k) (f'.controller k)) (hc : ∀ i, f'.Calls i k ↔ f.Calls i k)
    (hm : Hears (f.services.get p.service) (f'.services.get p.service) n m m') :
    Seated f' k p seat n m' := by
  refine ⟨ha.candidacy.trans h.candidacy, h.service, h.group, ha.callable.trans h.callable,
    fun i hi => h.only i ((hc i).mp hi), hm.found, hm.closed.trans h.isOpen,
    hm.started.trans h.started, hm.path.trans h.path, hm.listeners.trans h.listeners,
    hm.last h.last, fun hempty => ?_⟩
  obtain ⟨hquiet, hmaster⟩ := hm.of_empty hempty
  obtain ⟨hconnected, hshows⟩ := h.heard hquiet
  rw [hm.connected, hmaster]
  exact ⟨hconnected, shows_of_alike ha hc hshows⟩

theorem Abreast.alike (h : Abreast f k p) (ha : Alike (f.controller k) (f'.controller k))
    (hc : ∀ i, f'.Calls i k ↔ f.Calls i k)
    (hm : ∀ seat n m, Seated f k p seat n m →
      ∃ m', Hears (f.services.get p.service) (f'.services.get p.service) n m m') :
    Abreast f' k p where
  post := ⟨ha.settings.trans h.post.settings, by rw [ha.coordination]; exact h.post.coordination,
    by rw [ha.cluster]; exact h.post.cluster⟩
  part := by
    rcases h.part with ⟨hnone, hshows⟩ | ⟨seat, n, m, hseated⟩
    · exact Or.inl ⟨ha.candidacy.trans hnone, shows_of_alike ha hc hshows⟩
    · obtain ⟨m', hm'⟩ := hm seat n m hseated
      exact Or.inr ⟨seat, n, m', hseated.hears ha hc hm'⟩

/-! ## One controller's business -/

/-- What happens is the business of the controller `k` and of one member of a service. -/
structure Minds (f f' : Fleet) (k service n : Nat) : Prop where
  services : ∀ i, i ≠ service → f'.services.get i = f.services.get i
  apart : Apart (f.services.get service) (f'.services.get service) n
  others : ∀ j, j ≠ k → Alike (f.controller j) (f'.controller j)
  calls : ∀ i j, j ≠ k → (f'.Calls i j ↔ f.Calls i j)

/-- Every member but the one that is minded hears of it. -/
theorem Minds.hears {service n : Nat} (h : Minds f f' k service n)
    (ho : ∀ i, Orderly (f.services.get i)) {i j : Nat} {m : Member Nat}
    (hne : ¬ (i = service ∧ j = n)) (hm : (f.services.get i).members[j]? = some m) :
    ∃ m', Hears (f.services.get i) (f'.services.get i) j m m' := by
  by_cases hi : i = service
  · subst hi
    exact h.apart.heard (ho i) j m (fun hj => hne ⟨rfl, hj⟩) hm
  · rw [h.services i hi]
    exact ⟨m, hears_refl hm⟩

/-- Every member but the one that is minded was there before. -/
theorem Minds.old {service n : Nat} (h : Minds f f' k service n)
    (ho : ∀ i, Orderly (f.services.get i)) {i j : Nat} {m' : Member Nat}
    (hne : ¬ (i = service ∧ j = n)) (hm' : (f'.services.get i).members[j]? = some m') :
    ∃ m, (f.services.get i).members[j]? = some m
      ∧ Hears (f.services.get i) (f'.services.get i) j m m' := by
  by_cases hi : i = service
  · subst hi
    exact h.apart.before (ho i) (fun hj => hne ⟨rfl, hj⟩) hm'
  · rw [h.services i hi] at hm' ⊢
    exact ⟨m', hm', hears_refl hm'⟩

/-- Where the member that is minded is closed or that of `k`, nobody else sits there. -/
theorem not_minded {service n : Nat}
    (hsole : ∀ m, (f.services.get service).members[n]? = some m →
      m.closed = true ∨ m.listeners = [k])
    {j i : Nat} (hj : j ≠ k) {seat : Candidacy} {m : Member Nat} (hs : Seated f j p seat i m) :
    ¬ (p.service = service ∧ i = n) := by
  rintro ⟨rfl, rfl⟩
  rcases hsole m hs.found with hc | hl
  · exact absurd (hc.symm.trans hs.isOpen) (by simp)
  · have heq := hl.symm.trans hs.listeners
    simp only [List.cons.injEq, and_true] at heq
    exact hj heq.symm

/-- The step of a controller is its own business, as far as it leaves the services to one member
and the other callbacks alone. -/
theorem minds_step {service n : Nat} {c' : Controller} {w' : Surroundings}
    (hs : ∀ i, i ≠ service → w'.services.get i = f.services.get i)
    (ha : Apart (f.services.get service) (w'.services.get service) n)
    (hc : ∀ i j, j ≠ k → (j ∈ (w'.sites.get i).store.callbacks ↔ f.Calls i j)) :
    Minds f { w' with controllers := f.controllers.set k c' } k service n where
  services := hs
  apart := ha
  others j hj := by
    have hsame : ({ w' with controllers := f.controllers.set k c' } : Fleet).controller j
        = f.controller j := by
      rw [controller, Table.get_set_ne _ _ hj]
      rfl
    rw [hsame]
    exact .refl _
  calls := hc

/--
**One controller's business keeps all others abreast.** It remains to look at the
controller itself and its own member.
-/
theorem current_of_minds {posts : List Post} (h : Current posts f) {service n : Nat}
    (ha : Minds f f' k service n)
    (hseat : ∀ p seat j m, posts[k]? = some p → Seated f k p seat j m → p.service = service ∧ j = n)
    (hsole : ∀ m, (f.services.get service).members[n]? = some m →
      m.closed = true ∨ m.listeners = [k])
    (hpost : ∀ p, posts[k]? = some p → Abreast f' k p)
    (hvacant : posts[k]? = none →
      (f'.controller k).candidacy = none ∧ (f'.controller k).coordination.value = none)
    (hself : ∀ m', (f'.services.get service).members[n]? = some m' →
      (m'.closed = false ∧ ∃ p seat, posts[k]? = some p ∧ p.service = service
        ∧ Seated f' k p seat n m') ∨ (m'.closed = true ∧ m'.queue = [])) :
    Current posts f' := by
  refine ⟨?_, ?_, ?_, ?_, ?_⟩
  · intro i
    by_cases hi : i = service
    · subst hi
      exact ha.apart.orderly (h.orderly i)
    · rw [ha.services i hi]
      exact h.orderly i
  · intro j p hp
    by_cases hj : j = k
    · subst hj
      exact hpost p hp
    · refine (h.abreast j p hp).alike (ha.others j hj) (fun i => ha.calls i j hj) ?_
      intro seat i m hs
      exact ha.hears h.orderly (not_minded hsole hj hs) hs.found
  · intro j hp
    by_cases hj : j = k
    · subst hj
      exact hvacant hp
    · obtain ⟨hcand, hcoord⟩ := h.vacant j hp
      have halike := ha.others j hj
      exact ⟨halike.candidacy.trans hcand, by rw [halike.coordination, hcoord]⟩
  · intro i j m' hm' hopen
    by_cases hne : i = service ∧ j = n
    · obtain ⟨rfl, rfl⟩ := hne
      rcases hself m' hm' with ⟨_, p, seat, hp, hps, hs⟩ | ⟨hc, _⟩
      · exact ⟨k, p, seat, hp, hps, hs⟩
      · exact absurd (hc.symm.trans hopen) (by simp)
    · obtain ⟨m, hm, hears⟩ := ha.old h.orderly hne hm'
      obtain ⟨x, p, seat, hp, rfl, hs⟩ := h.owned i j m hm (hears.closed.symm.trans hopen)
      -- the one who is minded has no other seat than the one that is minded
      have hx : x ≠ k := by
        rintro rfl
        exact hne (hseat p seat j m hp hs)
      exact ⟨x, p, seat, hp, rfl,
        hs.hears (ha.others x hx) (fun i => ha.calls i x hx) hears⟩
  · intro i j m' hm' hclosed
    by_cases hne : i = service ∧ j = n
    · obtain ⟨rfl, rfl⟩ := hne
      rcases hself m' hm' with ⟨hc, _⟩ | ⟨_, hq⟩
      · exact absurd (hc.symm.trans hclosed) (by simp)
      · exact hq
    · obtain ⟨m, hm, hears⟩ := ha.old h.orderly hne hm'
      exact hears.silent (h.silent i j m hm) hclosed

/-- The business of a controller at its post: before it, the controller stands for the member that
is minded, or for none and the member is new. -/
theorem current_of_post {posts : List Post} (h : Current posts f) {n : Nat}
    (hp : posts[k]? = some p) (ha : Minds f f' k p.service n)
    (hbefore : ((f.controller k).candidacy = none
        ∧ (f.services.get p.service).members[n]? = none) ∨
      ∃ seat m, Seated f k p seat n m)
    (hpost : Abreast f' k p)
    (hself : ∀ m', (f'.services.get p.service).members[n]? = some m' →
      (∃ seat, Seated f' k p seat n m') ∨ (m'.closed = true ∧ m'.queue = [])) :
    Current posts f' := by
  refine current_of_minds h ha ?_ ?_ ?_ ?_ ?_
  · intro p' seat' j m' hp' hs'
    obtain rfl := Option.some.inj (hp.symm.trans hp')
    rcases hbefore with ⟨hnone, _⟩ | ⟨seat, m, hs⟩
    · exact absurd (hnone.symm.trans hs'.candidacy) (by simp)
    · obtain rfl := Option.some.inj (hs.candidacy.symm.trans hs'.candidacy)
      exact ⟨rfl, (Option.some.inj (hs.group.symm.trans hs'.group)).symm⟩
  · intro x hx
    rcases hbefore with ⟨_, hnew⟩ | ⟨seat, m, hs⟩
    · exact absurd (hnew.symm.trans hx) (by simp)
    · obtain rfl := Option.some.inj (hs.found.symm.trans hx)
      exact Or.inr hs.listeners
  · intro p' hp'
    obtain rfl := Option.some.inj (hp.symm.trans hp')
    exact hpost
  · intro hnone
    exact absurd (hnone.symm.trans hp) (by simp)
  · intro m' hm'
    rcases hself m' hm' with ⟨seat, hs⟩ | hgone
    · exact Or.inl ⟨hs.isOpen, p, seat, hp, rfl, hs⟩
    · exact Or.inr hgone

theorem current_of_seated {posts : List Post} (h : Current posts f) {n : Nat}
    (hp : posts[k]? = some p) (ha : Minds f f' k p.service n)
    (hbefore : ((f.controller k).candidacy = none
        ∧ (f.services.get p.service).members[n]? = none) ∨
      ∃ seat m, Seated f k p seat n m)
    (hat : (f'.controller k).At p) {seat' : Candidacy} {m' : Member Nat}
    (hafter : Seated f' k p seat' n m') : Current posts f' := by
  refine current_of_post h hp ha hbefore ⟨hat, Or.inr ⟨seat', n, m', hafter⟩⟩ ?_
  intro x hx
  obtain rfl := Option.some.inj (hafter.found.symm.trans hx)
  exact Or.inl ⟨seat', hafter⟩

/-! ## Steps that nobody sees -/

/-- Controllers look the same, and so do the services and the callbacks of the sites. -/
structure Faint (f f' : Fleet) : Prop where
  alike : ∀ k, Alike (f.controller k) (f'.controller k)
  services : ∀ i, f'.services.get i = f.services.get i
  calls : ∀ i k, f'.Calls i k ↔ f.Calls i k

theorem Faint.seated (h : Faint f f') {seat : Candidacy} {n : Nat} {m : Member Nat}
    (hs : Seated f k p seat n m) : Seated f' k p seat n m :=
  hs.hears (h.alike k) (fun i => h.calls i k)
    (by rw [h.services p.service]; exact hears_refl hs.found)

theorem current_faint {posts : List Post} (h : Current posts f) (hf : Faint f f') :
    Current posts f' where
  orderly i := by rw [hf.services i]; exact h.orderly i
  abreast k p hp := by
    refine (h.abreast k p hp).alike (hf.alike k) (fun i => hf.calls i k) fun seat n m hs => ?_
    rw [hf.services p.service]
    exact ⟨m, hears_refl hs.found⟩
  vacant k hp := by
    obtain ⟨hcand, hcoord⟩ := h.vacant k hp
    exact ⟨(hf.alike k).candidacy.trans hcand, by rw [(hf.alike k).coordination, hcoord]⟩
  owned i n m hm hopen := by
    rw [hf.services i] at hm
    obtain ⟨k, p, seat, hp, hps, hs⟩ := h.owned i n m hm hopen
    exact ⟨k, p, seat, hp, hps, hf.seated hs⟩
  silent i n m hm hclosed := by
    rw [hf.services i] at hm
    exact h.silent i n m hm hclosed

theorem faint_move (f : Fleet) (k : Nat)
    (g : Controller → Surroundings → Controller × Surroundings)
    (hg : Controller.Faint (f.controller k) f.toSurroundings
      (g (f.controller k) f.toSurroundings).1 (g (f.controller k) f.toSurroundings).2) :
    Faint f (f.move k g) := by
  obtain ⟨ha, hs, hc⟩ := hg
  refine ⟨fun j => ?_, fun i => congrArg (Table.get · i) hs, fun i j => ?_⟩
  · by_cases hj : j = k
    · subst hj
      rw [controller_move_self]
      exact ⟨ha.settings, ha.coordination, ha.cluster, ha.candidacy, ha.callable, ha.state,
        ha.timer⟩
    · rw [controller_move_ne f k hj]
      exact .refl _
  · show j ∈ _ ↔ j ∈ _
    rw [toSurroundings_move, hc i]

theorem faint_call (f : Fleet) (k : Nat) : Faint f (f.call k) := by
  unfold call
  split
  · exact ⟨fun _ => .refl _, fun _ => rfl, fun _ _ => Iff.rfl⟩
  · exact faint_move f k _ (Controller.faint_configurationChanged _ _)

theorem faint_changeSite (f : Fleet) (site : Nat) {g : Site Nat → Site Nat}
    (hg : (g (f.sites.get site)).store.callbacks = (f.sites.get site).store.callbacks) :
    Faint f (f.changeSite site g) := by
  refine ⟨fun _ => .refl _, fun _ => rfl, fun i j => ?_⟩
  unfold Calls changeSite
  by_cases hi : i = site
  · subst hi
    simp [hg]
  · simp [Table.get_update_ne _ _ hi]

theorem callbacks_notifierStep {κ : Type} (s : Store κ) :
    s.notifierStep.2.callbacks = s.callbacks := by
  unfold Store.notifierStep
  split
  · split <;> rfl
  · rfl
  · rfl
  · rfl

theorem current_notify {posts : List Post} (h : Current posts f) (site : Nat) :
    Current posts (f.notify site) := by
  have hsite : Faint f (f.changeSite site fun s =>
      { s with store := (f.sites.get site).store.notifierStep.2 }) :=
    faint_changeSite f site (callbacks_notifierStep _)
  unfold notify
  simp only
  split
  · exact current_faint h hsite
  · rename_i k _
    exact current_faint (current_faint h hsite) (faint_call _ k)

end Fleet

end FleetScaler
