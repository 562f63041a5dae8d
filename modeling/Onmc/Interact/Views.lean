import Onmc.Interact.Histories

/-! One call at a time. Its main thread sees some of the world, and what it sees it alone changes; what
its tasks do shows only in what they return. -/
namespace Interact

variable {I : Interface} {V α β : Type}

/-- The tasks that a main thread has submitted, each with what it returned once that was awaited. -/
abbrev Submissions (I : Interface) := List (I.Task × Option (Except I.Failure I.Value))

/-- What a main thread asks for and relies on, and what it keeps true of all that it sees. -/
structure Terms (I : Interface) (V : Type) where
  asks : I.Request → Prop
  effect : V → (request : I.Request) → V → I.Reply request → Prop
  returns : I.Task → Except I.Failure I.Value → Prop
  keeps : V → Submissions I → Prop

/-- On these terms the program keeps what it has to keep, and it ends as stated. -/
def Secures (T : Terms I V) (post : V → Submissions I → Except I.Failure α → Prop) :
    Program I α → V → Submissions I → Prop
  | .ret value, v, l => post v l (.ok value)
  | .raise e, v, l => post v l (.error e)
  | .ask request next, v, l => T.asks request ∧ ∀ v' reply, T.effect v request v' reply →
      T.keeps v' l ∧ Secures T post (next reply) v' l
  | .submit task next, v, l =>
    T.keeps v (l ++ [(task, none)]) ∧ Secures T post (next l.length) v (l ++ [(task, none)])
  | .await future next, v, l => ∀ task seen outcome, l[future]? = some (task, seen) → T.returns task outcome →
      T.keeps v (l.set future (task, some outcome)) ∧
        Secures T post (next outcome) v (l.set future (task, some outcome))
  | .stall, _, _ => True

section Rules

variable {T : Terms I V} {v : V} {l : Submissions I}

theorem Secures.mono {post post' : V → Submissions I → Except I.Failure α → Prop} {p : Program I α}
    (secures : Secures T post p v l) (weaker : ∀ v l outcome, post v l outcome → post' v l outcome) :
    Secures T post' p v l := by
  induction p generalizing v l with
  | ret value => exact weaker _ _ _ secures
  | raise e => exact weaker _ _ _ secures
  | ask request next ih =>
    refine ⟨secures.1, fun v' reply effect => ?_⟩
    exact ⟨(secures.2 v' reply effect).1, ih _ (secures.2 v' reply effect).2⟩
  | submit task next ih => exact ⟨secures.1, ih _ secures.2⟩
  | await future next ih =>
    intro task seen outcome found returned
    exact ⟨(secures task seen outcome found returned).1, ih _ (secures task seen outcome found returned).2⟩
  | stall => trivial

theorem Secures.bind {post : V → Submissions I → Except I.Failure β → Prop} {p : Program I α}
    {f : α → Program I β}
    (secures : Secures T (fun v l outcome => match outcome with
      | .ok value => Secures T post (f value) v l
      | .error e => post v l (.error e)) p v l) : Secures T post (p.bind f) v l := by
  induction p generalizing v l with
  | ret value => exact secures
  | raise e => exact secures
  | ask request next ih =>
    refine ⟨secures.1, fun v' reply effect => ?_⟩
    exact ⟨(secures.2 v' reply effect).1, ih _ (secures.2 v' reply effect).2⟩
  | submit task next ih => exact ⟨secures.1, ih _ secures.2⟩
  | await future next ih =>
    intro task seen outcome found returned
    exact ⟨(secures task seen outcome found returned).1, ih _ (secures task seen outcome found returned).2⟩
  | stall => trivial

theorem Secures.attempt {post : V → Submissions I → Except I.Failure (Except I.Failure α) → Prop} {p : Program I α}
    (secures : Secures T (fun v l outcome => post v l (.ok outcome)) p v l) : Secures T post p.attempt v l := by
  induction p generalizing v l with
  | ret value => exact secures
  | raise e => exact secures
  | ask request next ih =>
    refine ⟨secures.1, fun v' reply effect => ?_⟩
    exact ⟨(secures.2 v' reply effect).1, ih _ (secures.2 v' reply effect).2⟩
  | submit task next ih => exact ⟨secures.1, ih _ secures.2⟩
  | await future next ih =>
    intro task seen outcome found returned
    exact ⟨(secures task seen outcome found returned).1, ih _ (secures task seen outcome found returned).2⟩
  | stall => trivial

theorem Secures.ofExcept {post : V → Submissions I → Except I.Failure α → Prop} {outcome : Except I.Failure α}
    (holds : post v l outcome) : Secures T post (Program.ofExcept outcome) v l := by
  cases outcome with
  | ok value => exact holds
  | error e => exact holds

theorem Secures.mapFailure {post : V → Submissions I → Except I.Failure α → Prop} {f : I.Failure → I.Failure}
    {p : Program I α} (secures : Secures T (fun v l outcome => post v l (outcome.mapError f)) p v l) :
    Secures T post (p.mapFailure f) v l :=
  .bind (.attempt (secures.mono fun _ _ _ holds => .ofExcept holds))

end Rules

/-! Programs that submit nothing, and of which it matters only how they change what is seen. -/

/-- Whatever is seen, the program changes it within a relation and raises only such exceptions. -/
def Within (T : Terms I V) (R : V → V → Prop) (raises : I.Failure → Prop) (p : Program I α) : Prop :=
  ∀ v l, T.keeps v l → Secures T (fun v' l' outcome => T.keeps v' l' ∧ R v v' ∧ l' = l ∧
    ∀ e, outcome = .error e → raises e) p v l

/-- A relation that holds across no change, and across one after another. -/
structure Steady (R : V → V → Prop) : Prop where
  refl : ∀ v, R v v
  trans : ∀ u v w, R u v → R v w → R u w

section Within

variable {T : Terms I V} {R : V → V → Prop} {raises : I.Failure → Prop}

theorem Within.ret (steady : Steady R) (a : α) : Within T R raises (.ret a) := by
  intro v l kept
  refine ⟨kept, steady.refl v, rfl, ?_⟩
  rintro _ ⟨⟩

theorem Within.raise (steady : Steady R) {e : I.Failure} (fine : raises e) :
    Within T R raises (.raise e : Program I α) := by
  intro v l kept
  refine ⟨kept, steady.refl v, rfl, ?_⟩
  rintro _ ⟨⟩
  exact fine

theorem Within.ofExcept (steady : Steady R) {outcome : Except I.Failure α}
    (fine : ∀ e, outcome = .error e → raises e) : Within T R raises (.ofExcept outcome) := by
  cases outcome with
  | ok a => exact .ret steady a
  | error e => exact .raise steady (fine e rfl)

theorem Within.request {request : I.Request} (asks : T.asks request)
    (changes : ∀ v v' l reply, T.keeps v l → T.effect v request v' reply → T.keeps v' l ∧ R v v') :
    Within T R raises (Program.request request) := by
  intro v l kept
  refine ⟨asks, fun v' reply effect => ?_⟩
  obtain ⟨kept', change⟩ := changes v v' l reply kept effect
  refine ⟨kept', kept', change, rfl, ?_⟩
  rintro _ ⟨⟩

/-- What comes after such a program, where what is seen does matter. -/
theorem Within.then {p : Program I α} {f : α → Program I β} {v : V} {l : Submissions I}
    {post : V → Submissions I → Except I.Failure β → Prop} (within : Within T R raises p) (kept : T.keeps v l)
    (next : ∀ a v', T.keeps v' l → R v v' → Secures T post (f a) v' l)
    (failed : ∀ e v', T.keeps v' l → R v v' → raises e → post v' l (.error e)) :
    Secures T post (p.bind f) v l := by
  refine .bind ((within v l kept).mono ?_)
  rintro v' l' outcome ⟨kept', change, rfl, fine⟩
  cases outcome with
  | ok a => exact next a v' kept' change
  | error e => exact failed e v' kept' change (fine e rfl)

theorem Within.bind (steady : Steady R) {p : Program I α} {f : α → Program I β} (within : Within T R raises p)
    (next : ∀ a, Within T R raises (f a)) : Within T R raises (p.bind f) := by
  intro v l kept
  refine within.then kept ?_ ?_
  · intro a v' kept' change
    refine (next a v' l kept').mono ?_
    rintro v'' l'' outcome ⟨kept'', change', same, fine⟩
    exact ⟨kept'', steady.trans _ _ _ change change', same, fine⟩
  · intro e v' kept' change fine
    refine ⟨kept', change, rfl, ?_⟩
    rintro _ ⟨⟩
    exact fine

/-- The exception comes back as a value. -/
theorem Within.attempted {raises' : I.Failure → Prop} (steady : Steady R) {p : Program I α}
    {f : Except I.Failure α → Program I β} (within : Within T R raises p)
    (returned : ∀ a, Within T R raises' (f (.ok a)))
    (raised : ∀ e, raises e → Within T R raises' (f (.error e))) : Within T R raises' (p.attempt.bind f) := by
  intro v l kept
  refine .bind (.attempt ((within v l kept).mono ?_))
  rintro v' l' outcome ⟨kept', change, rfl, fine⟩
  have next : Within T R raises' (f outcome) := by
    cases outcome with
    | ok a => exact returned a
    | error e => exact raised e (fine e rfl)
  refine (next v' _ kept').mono ?_
  rintro v'' l'' last ⟨kept'', change', same, fine'⟩
  exact ⟨kept'', steady.trans _ _ _ change change', same, fine'⟩

theorem Within.mono {R' : V → V → Prop} {raises' : I.Failure → Prop} {p : Program I α} (within : Within T R raises p)
    (weaker : ∀ v v', R v v' → R' v v') (fewer : ∀ e, raises e → raises' e) : Within T R' raises' p := by
  intro v l kept
  refine (within v l kept).mono ?_
  rintro v' l' outcome ⟨kept', change, same, fine⟩
  exact ⟨kept', weaker _ _ change, same, fun e failed => fewer e (fine e failed)⟩

end Within

/-! Runs of one call at a time. -/

/-- The terms are those of a semantics, in the worlds up to a given point of a run: what the main
thread's requests do to what it sees, what the tasks' requests do not, and what tasks return. -/
structure Fits (S : Semantics I) (T : Terms I V) (view : S.World → V) (good past : S.World → Prop) where
  calm : I.Task → I.Request → Prop
  told : Mark I → Prop
  earlier : ∀ oracle request w, past (S.perform oracle request w).1 → past w
  stays : ∀ oracle request w, good w → good (S.perform oracle request w).1
  forgets : ∀ v l, T.keeps v l → T.keeps v []
  performs : ∀ oracle request w l, good w → past (S.perform oracle request w).1 → T.keeps (view w) l →
    T.effect (view w) request (view (S.perform oracle request w).1) (S.perform oracle request w).2
  unseen : ∀ oracle task request w, good w → calm task request → view (S.perform oracle request w).1 = view w
  tells : ∀ oracle request w, past (S.perform oracle request w).1 →
    told (.asked request (S.perform oracle request w).2)
  task : ∀ task, Keeps ⟨fun _ request => calm task request, fun _ _ => False, fun _ => True⟩
    (fun h outcome => (∀ mark ∈ h, told mark) → T.returns task outcome) (S.body task) []

variable {S : Semantics I} {T : Terms I V} {view : S.World → V} {good past : S.World → Prop}
  {post : V → Submissions I → Except I.Failure S.Result → Prop}

/-- The submissions are the tasks of the call, and what was awaited is what they returned. -/
structure Call.Lists (c : Call S) (l : Submissions I) : Prop where
  length : l.length = c.tasks.length
  task : ∀ (j : Nat) task seen, l[j]? = some (task, seen) → ∃ thread, c.tasks[j]? = some (task, thread)
  seen : ∀ (j : Nat) task outcome, l[j]? = some (task, some outcome) → c.finished j = some outcome

/-- The main thread stands where the rest of its program secures what it is to secure. -/
structure Call.Secured (c : Call S) (T : Terms I V) (told : Mark I → Prop)
    (post : V → Submissions I → Except I.Failure S.Result → Prop) (v : V) : Prop where
  asked : ∀ mark ∈ marks c.main.history, mark.Of T.asks
  told : ∀ (j : Nat) task thread, c.tasks[j]? = some (task, thread) → ∀ mark ∈ marks thread.history, told mark
  main : ∃ l, c.Lists l ∧ T.keeps v l ∧ Secures T post c.main.program v l

theorem Call.Lists.tasks {c : Call S} {l : Submissions I} (lists : c.Lists l) : l.map Prod.fst = c.tasks.map Prod.fst := by
  apply List.ext_getElem?
  intro j
  rw [List.getElem?_map, List.getElem?_map]
  cases here : l[j]? with
  | none =>
    have beyond : c.tasks[j]? = none := by
      rw [List.getElem?_eq_none_iff] at here ⊢
      exact lists.length ▸ here
    rw [beyond]
    rfl
  | some entry =>
    obtain ⟨thread, found⟩ := lists.task j entry.1 entry.2 here
    rw [found]
    rfl

theorem Call.Lists.submitted {c : Call S} {l : Submissions I} (lists : c.Lists l) (task : I.Task)
    (main : Thread S S.Result) (thread : Thread S I.Value) :
    ({ c with main := main, tasks := c.tasks ++ [(task, thread)] } : Call S).Lists (l ++ [(task, none)]) where
  length := by simp [lists.length]
  task := by
    intro j t seen found
    rcases getElem?_concat_cases found with found | ⟨rfl, same⟩
    · obtain ⟨other, here⟩ := lists.task j t seen found
      exact ⟨other, by simp [List.getElem?_append_left (List.getElem?_eq_some_iff.mp here).1, here]⟩
    · cases same
      exact ⟨thread, by simp [lists.length]⟩
  seen := by
    intro j t outcome found
    rcases getElem?_concat_cases found with found | ⟨_, same⟩
    · exact Call.finished_append (lists.seen j t outcome found)
    · cases same

theorem Call.Lists.awaited {c : Call S} {l : Submissions I} (lists : c.Lists l) {task : I.Task}
    {seen : Option (Except I.Failure I.Value)} {future : Nat} {outcome : Except I.Failure I.Value}
    (found : l[future]? = some (task, seen)) (finished : c.finished future = some outcome)
    (main : Thread S S.Result) :
    ({ c with main := main } : Call S).Lists (l.set future (task, some outcome)) where
  length := by simp [lists.length]
  task := by
    intro j t old here
    rcases getElem?_set_cases here with ⟨rfl, same⟩ | ⟨_, here⟩
    · cases same
      exact lists.task _ _ _ found
    · exact lists.task j t old here
  seen := by
    intro j t out here
    rcases getElem?_set_cases here with ⟨rfl, same⟩ | ⟨_, here⟩
    · cases same
      exact finished
    · exact lists.seen j t out here

theorem Call.Lists.advanced {c : Call S} {l : Submissions I} (lists : c.Lists l) {future : Nat} {task : I.Task}
    {thread thread' : Thread S I.Value} (found : c.tasks[future]? = some (task, thread))
    (running : thread.outcome? = none) :
    ({ c with tasks := c.tasks.set future (task, thread') } : Call S).Lists l where
  length := by simp [lists.length]
  task := by
    intro j t seen here
    obtain ⟨other, listed⟩ := lists.task j t seen here
    by_cases same : future = j
    · subst same
      rw [found] at listed
      cases listed
      exact ⟨thread', List.getElem?_set_self (List.getElem?_eq_some_iff.mp found).1⟩
    · exact ⟨other, by simpa [List.getElem?_set_ne same] using listed⟩
  seen := by
    intro j t outcome here
    exact Call.finished_set found running (lists.seen j t outcome here)

/-- What a finished task returned is what its body is bound to return. -/
theorem Fits.returned (fits : Fits S T view good past) {c : Call S} (grounded : c.Grounded)
    {j : Nat} {task : I.Task} {thread : Thread S I.Value} (found : c.tasks[j]? = some (task, thread))
    (told : ∀ mark ∈ marks thread.history, fits.told mark) {outcome : Except I.Failure I.Value}
    (finished : c.finished j = some outcome) : T.returns task outcome := by
  have kept := (fits.task task).follows (grounded.task j task thread found)
  have out : thread.outcome? = some outcome := by simpa [Call.finished, found] using finished
  cases program : thread.program with
  | ret value =>
    rw [program] at kept
    simp only [Thread.outcome?, program, Option.some.injEq] at out
    exact out ▸ kept told
  | raise e =>
    rw [program] at kept
    simp only [Thread.outcome?, program, Option.some.injEq] at out
    exact out ▸ kept told
  | _ => simp [Thread.outcome?, program] at out

/-- The request that a task is about to make is one that the main thread does not see. -/
theorem Fits.asking (fits : Fits S T view good past) {c : Call S} (grounded : c.Grounded)
    {j : Nat} {task : I.Task} {thread : Thread S I.Value} (found : c.tasks[j]? = some (task, thread))
    {request : I.Request} {next : I.Reply request → Program I I.Value}
    (program : thread.program = .ask request next) : fits.calm task request := by
  have kept := (fits.task task).follows (grounded.task j task thread found)
  rw [program] at kept
  exact kept.1

/-- The world before a step is an earlier one. -/
theorem Fits.before (fits : Fits S T view good past) {stamp : Stamp S} (honest : stamp.Honest)
    (reach : past stamp.after) : past stamp.before := by
  obtain ⟨mark, before, after⟩ := stamp
  cases mark with
  | asked request reply =>
    obtain ⟨oracle, performed⟩ := honest
    have same : (S.perform oracle request before).1 = after := congrArg Prod.fst performed
    exact fits.earlier oracle request before (same ▸ reach)
  | submitted task future =>
    have same : before = after := honest
    exact same ▸ reach
  | awaited future outcome =>
    have same : before = after := honest
    exact same ▸ reach

theorem Thread.asked_take {α : Type} {T : Terms I V} {t : Thread S α} {stamp : Stamp S} {program : Program I α}
    (asked : ∀ mark ∈ marks t.history, mark.Of T.asks) (own : stamp.mark.Of T.asks) :
    ∀ mark ∈ marks (t.take stamp program).history, mark.Of T.asks := by
  intro mark member
  simp only [Thread.take, marks_concat, List.mem_append, List.mem_singleton] at member
  rcases member with member | rfl
  · exact asked mark member
  · exact own

theorem Fits.step (fits : Fits S T view good past) {c c' : Call S} {oracle : S.Oracle} {w : S.World} {who : Turn}
    {stamp : Stamp S} (step : c.Step oracle w who stamp c') (grounded : c.Grounded)
    (secured : c.Secured T fits.told post (view w)) (fine : good w) (reach : past stamp.after) :
    c'.Secured T fits.told post (view stamp.after) ∧ good stamp.after := by
  obtain ⟨l, lists, kept, secures⟩ := secured.main
  cases step with
  | asked request next program stamp made =>
    subst made
    rw [program] at secures
    obtain ⟨kept', rest⟩ := secures.2 _ _ (fits.performs oracle request w l fine reach kept)
    exact ⟨⟨Thread.asked_take secured.asked secures.1, secured.told, l, ⟨lists.length, lists.task, lists.seen⟩, kept',
      rest⟩, fits.stays _ _ _ fine⟩
  | submitted task next program stamp made =>
    subst made
    rw [program] at secures
    obtain ⟨kept', rest⟩ := secures
    rw [lists.length] at rest
    refine ⟨⟨Thread.asked_take secured.asked trivial, ?_, _, lists.submitted task _ _, kept', rest⟩, fine⟩
    intro j t thread found
    rcases getElem?_concat_cases found with found | ⟨_, same⟩
    · exact secured.told j t thread found
    · cases same
      intro mark member
      simp [marks] at member
  | awaited future next program outcome finished stamp made =>
    subst made
    rw [program] at secures
    obtain ⟨entry, listed, _⟩ := Option.bind_eq_some_iff.mp finished
    obtain ⟨⟨task, seen⟩, here⟩ : ∃ entry, l[future]? = some entry := by
      have inside := (List.getElem?_eq_some_iff.mp listed).1
      rw [← lists.length] at inside
      exact ⟨_, List.getElem?_eq_getElem inside⟩
    obtain ⟨thread, found⟩ := lists.task future task seen here
    have returned := fits.returned grounded found (secured.told _ _ _ found) finished
    obtain ⟨kept', rest⟩ := secures task seen outcome here returned
    exact ⟨⟨Thread.asked_take secured.asked trivial, secured.told, _, lists.awaited here finished _, kept', rest⟩, fine⟩
  | task future task thread found request next program stamp made =>
    subst made
    have running : thread.outcome? = none := by simp [Thread.outcome?, program]
    have calm := fits.asking grounded found program
    have same := fits.unseen oracle task request w fine calm
    simp only [same]
    refine ⟨⟨secured.asked, ?_, l, lists.advanced found running, kept, secures⟩, fits.stays _ _ _ fine⟩
    intro j t other here
    rcases getElem?_set_cases here with ⟨rfl, same⟩ | ⟨_, here⟩
    · cases same
      intro mark member
      simp only [Thread.take, marks_concat, List.mem_append, List.mem_singleton] at member
      rcases member with member | rfl
      · exact secured.told _ _ _ found mark member
      · exact fits.tells oracle request w reach
    · exact secured.told j t other here

/-- What is true of a run at every point of it. -/
structure Solo (fits : Fits S T view good past) (post : V → Submissions I → Except I.Failure S.Result → Prop)
    (s : System S) : Prop where
  good : good s.world
  keeps : T.keeps (view s.world) []
  calls : ∀ (i : Nat) c, s.calls[i]? = some c → i = 0 ∧ c.Secured T fits.told post (view s.world)

/-- The moves of a run in which there is one call and nobody else. -/
def Alone (begins : S.Start → Prop) (s : System S) : Move S → Prop
  | .begin start => s.calls = [] ∧ begins start
  | .outside _ => False
  | _ => True

theorem Solo.replaced {fits : Fits S T view good past} {s : System S} {i : Nat} {c c' : Call S}
    (found : s.calls[i]? = some c) (solo : ∀ (j : Nat) d, s.calls[j]? = some d → j = 0) {w : S.World} (fine : good w)
    (secured : c'.Secured T fits.told post (view w)) : Solo fits post ⟨w, s.calls.set i c'⟩ where
  good := fine
  keeps := by
    obtain ⟨l, _, kept, _⟩ := secured.main
    exact fits.forgets _ l kept
  calls := by
    intro j d here
    rcases getElem?_set_cases here with ⟨rfl, rfl⟩ | ⟨other, here⟩
    · exact ⟨solo _ _ found, secured⟩
    · exact absurd ((solo _ _ found).trans (solo _ _ here).symm) other

theorem Reached.solo (fits : Fits S T view good past) {begins : S.Start → Prop}
    (main : ∀ start v, begins start → T.keeps v [] → Secures T post (S.main start) v [])
    {w₀ : S.World} (fine : good w₀) (kept : T.keeps (view w₀) []) {s : System S} (reached : Reached (Alone begins) w₀ s)
    (reach : past s.world) : Solo fits post s := by
  induction reached with
  | start =>
    refine ⟨fine, kept, ?_⟩
    intro i c found
    simp at found
  | move s m reached ok ih =>
    rcases move_cases s m with same | ⟨start, rfl, here⟩ |
      ⟨i, who, oracle, c, stamp, c', rfl, found, _, step, here⟩ | ⟨i, c, rfl, found, here⟩ | ⟨act, rfl, here⟩
    · rw [same] at reach ⊢
      exact ih reach
    · rw [here] at reach ⊢
      have was := ih reach
      refine ⟨was.good, was.keeps, ?_⟩
      intro i c found
      rw [ok.1] at found
      rcases getElem?_concat_cases found with found | ⟨rfl, rfl⟩
      · simp at found
      · refine ⟨rfl, ?_, ?_, [], ⟨rfl, ?_, ?_⟩, was.keeps, main start _ ok.2 was.keeps⟩
        · intro mark listed
          simp [Call.fresh, marks] at listed
        · intro j task thread listed
          simp [Call.fresh] at listed
        · intro j task seen listed
          simp at listed
        · intro j task outcome listed
          simp at listed
    · rw [here] at reach ⊢
      have stepped := Call.advance_step step
      have was := ih (stepped.before ▸ fits.before stepped.honest reach)
      obtain ⟨after, good'⟩ := fits.step stepped (reached.grounded i c found) (was.calls i c found).2 was.good reach
      exact .replaced found (fun j d found => (was.calls j d found).1) good' after
    · rw [here] at reach ⊢
      have was := ih reach
      obtain ⟨l, lists, kept, secures⟩ := (was.calls i c found).2.main
      exact .replaced found (fun j d found => (was.calls j d found).1) was.good
        ⟨(was.calls i c found).2.asked, (was.calls i c found).2.told, l, ⟨lists.length, lists.task, lists.seen⟩, kept, secures⟩
    · exact ok.elim

/-- The world at any earlier point of a run is an earlier one. -/
theorem Reached.begun (fits : Fits S T view good past) {begins : S.Start → Prop} {w₀ : S.World} {s : System S}
    (reached : Reached (Alone begins) w₀ s) (reach : past s.world) : past w₀ := by
  induction reached with
  | start => exact reach
  | move s m reached ok ih =>
    rcases move_cases s m with same | ⟨start, rfl, here⟩ |
      ⟨i, who, oracle, c, stamp, c', rfl, found, _, step, here⟩ | ⟨i, c, rfl, found, here⟩ | ⟨act, rfl, here⟩
    · exact ih (same ▸ reach)
    · exact ih (by rwa [here] at reach)
    · rw [here] at reach
      have stepped := Call.advance_step step
      exact ih (stepped.before ▸ fits.before stepped.honest reach)
    · exact ih (by rwa [here] at reach)
    · exact ok.elim

/-- One process after the other. Each makes one call, and ends or crashes at some point of it; the next
begins in what is left of the world then. -/
inductive Sessions (begins : S.Start → Prop) (left : S.World → S.World) (w₀ : S.World) : System S → Prop
  | first {s : System S} (reached : Reached (Alone begins) w₀ s) : Sessions begins left w₀ s
  | next {s s' : System S} (sessions : Sessions begins left w₀ s)
      (reached : Reached (Alone begins) (left s.world) s') : Sessions begins left w₀ s'

/-- What is left of a world between two sessions. -/
structure Leaves (T : Terms I V) (view : S.World → V) (good past : S.World → Prop) (left : S.World → S.World) :
    Prop where
  good : ∀ w, good w → good (left w)
  past : ∀ w, past (left w) → past w
  view : ∀ w, view (left w) = view w

theorem Sessions.solo (fits : Fits S T view good past) {begins : S.Start → Prop} {left : S.World → S.World}
    (leaves : Leaves T view good past left)
    (main : ∀ start v, begins start → T.keeps v [] → Secures T post (S.main start) v [])
    {w₀ : S.World} (fine : good w₀) (kept : T.keeps (view w₀) []) {s : System S} (sessions : Sessions begins left w₀ s)
    (reach : past s.world) : Solo fits post s := by
  induction sessions with
  | first reached => exact reached.solo fits main fine kept reach
  | next sessions reached ih =>
    have was := ih (leaves.past _ (reached.begun fits reach))
    exact reached.solo fits main (leaves.good _ was.good) (by rw [leaves.view]; exact was.keeps) reach

theorem Sessions.grounded {begins : S.Start → Prop} {left : S.World → S.World} {w₀ : S.World} {s : System S}
    (sessions : Sessions begins left w₀ s) {i : Nat} {c : Call S} (called : s.calls[i]? = some c) : c.Grounded := by
  cases sessions with
  | first reached => exact reached.grounded i c called
  | next _ reached => exact reached.grounded i c called

/-- A task that is still running has not been awaited, and the terms hold with it on the list. -/
theorem Solo.running {fits : Fits S T view good past} {s : System S} (solo : Solo fits post s) {i : Nat} {c : Call S}
    (called : s.calls[i]? = some c) {j : Nat} {task : I.Task} {thread : Thread S I.Value}
    (found : c.tasks[j]? = some (task, thread)) (running : thread.outcome? = none) :
    ∃ l, c.Lists l ∧ (task, none) ∈ l ∧ T.keeps (view s.world) l := by
  obtain ⟨l, lists, kept, _⟩ := (solo.calls i c called).2.main
  refine ⟨l, lists, ?_, kept⟩
  obtain ⟨⟨listed, seen⟩, here⟩ : ∃ entry, l[j]? = some entry := by
    have inside := (List.getElem?_eq_some_iff.mp found).1
    rw [← lists.length] at inside
    exact ⟨_, List.getElem?_eq_getElem inside⟩
  obtain ⟨other, there⟩ := lists.task j listed seen here
  rw [found] at there
  cases there
  cases seen with
  | none => exact List.mem_of_getElem? here
  | some outcome =>
    have finished := lists.seen j task outcome here
    simp [Call.finished, found, running] at finished

/-- What a call that has returned comes to. -/
theorem Solo.returned {fits : Fits S T view good past} {s : System S} (solo : Solo fits post s) {i : Nat} {c : Call S}
    (called : s.calls[i]? = some c) {outcome : Except I.Failure S.Result} (done : c.main.outcome? = some outcome) :
    ∃ l, c.Lists l ∧ T.keeps (view s.world) l ∧ post (view s.world) l outcome := by
  obtain ⟨l, lists, kept, secures⟩ := (solo.calls i c called).2.main
  refine ⟨l, lists, kept, ?_⟩
  cases program : c.main.program with
  | ret value =>
    simp only [Thread.outcome?, program, Option.some.injEq] at done
    rw [program] at secures
    exact done ▸ secures
  | raise e =>
    simp only [Thread.outcome?, program, Option.some.injEq] at done
    rw [program] at secures
    exact done ▸ secures
  | _ => simp [Thread.outcome?, program] at done

end Interact
