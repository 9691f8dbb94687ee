import Johnny.Agents.Deliberation
import Johnny.Goals.Arbiter
import Johnny.Lib.Hoare
import Johnny.Lib.Runs
import Mathlib.Data.Rat.Floor

/-!
# One pursuit at a time

Every version of the goal table that becomes visible has at most one active goal, in
any run of the calls of the single loop and with any of its transactions failing. A
goal is abandoned only for another drive, past its dwell and by more than the margin.
-/
namespace Johnny
variable {K ω : Type}

def AtMostOneActive (t : GoalTable K) : Prop := t.active.length ≤ 1

/-- Active before, abandoned after. -/
def Abandons (t u : GoalTable K) (g g' : GoalRow K) : Prop :=
  g ∈ t.active ∧ g' ∈ u.rows ∧ g'.id = g.id ∧ g'.status = .abandoned

/-- Absent before, there after. -/
def Promotes (t u : GoalTable K) (g : GoalRow K) : Prop :=
  g ∈ u.rows ∧ g.id ∉ t.rows.map GoalRow.id

namespace GoalArbiter
variable [Field K] [LinearOrder K]

/-- What the arbiter can do to the goals it finds, given these urges and this mood. -/
structure Judged (a : GoalArbiter K ω) (urges : List (Urge K)) (mood : Option (Mood K))
    (t u : GoalTable K) : Prop where
  /-- An abandoned goal had dwelt, and made place for a stronger goal of another drive. -/
  abandons : ∀ g g', Abandons t u g g' → ∃ decision closedAt, g'.resolvedAt = some closedAt ∧
    a.Displaces urges mood closedAt g.source g.createdAt decision ∧
    ∀ new, Promotes t u new → new.source = decision.source ∧ new.priority = decision.priority
  /-- A promoted goal is for an urge, and not for sleep. -/
  promotes : ∀ new, Promotes t u new → new.source ≠ sleepDrive ∧
    ∃ urge ∈ urges, new.source = urge.drive ∧ new.priority = a.priority urge mood

/-! ### The table under the arbiter's transactions -/

/-- The row a promotion adds. -/
def IsPromotion (decision : Goal K) (row : GoalRow K) : Prop :=
  row.source = decision.source ∧ row.priority = decision.priority ∧ row.status = .active

/-- The table after an arbitration that started from `t`, wherever it was cut short. -/
inductive Arbitrated (a : GoalArbiter K ω) (urges : List (Urge K)) (mood : Option (Mood K))
    (t : GoalTable K) : GoalTable K → Prop
  | kept : Arbitrated a urges mood t t
  | promoted {decision row u} (promotable : a.Promotable urges mood decision)
      (promotion : IsPromotion decision row) (added : t.insert? row = some u) :
      Arbitrated a urges mood t u
  | abandoned {decision incumbent outcome closedAt} (found : incumbent ∈ t.active)
      (displaces : a.Displaces urges mood closedAt incumbent.source incumbent.createdAt decision) :
      Arbitrated a urges mood t (t.close incumbent.id .abandoned outcome closedAt)
  | switched {decision incumbent outcome closedAt row u} (found : incumbent ∈ t.active)
      (displaces : a.Displaces urges mood closedAt incumbent.source incumbent.createdAt decision)
      (promotable : a.Promotable urges mood decision) (promotion : IsPromotion decision row)
      (added : (t.close incumbent.id .abandoned outcome closedAt).insert? row = some u) :
      Arbitrated a urges mood t u

end GoalArbiter

/-! ### Closing and adding rows -/

section rows
variable {t u : GoalTable K} {g g' row : GoalRow K}

theorem GoalTable.eq_of_id (t : GoalTable K) (hg : g ∈ t.rows) (hg' : g' ∈ t.rows)
    (same : g.id = g'.id) : g = g' :=
  List.inj_on_of_nodup_map t.keyed hg hg' same

theorem GoalTable.mem_active : g ∈ t.active ↔ g ∈ t.rows ∧ g.status = .active := by
  unfold active GoalRow.isActive
  rw [List.mem_filter]
  exact and_congr_right fun _ => beq_iff_eq

theorem GoalTable.close_ids (t : GoalTable K) (id : ℕ) (status : GoalStatus) (outcome : Dict K)
    (now : K) : (t.close id status outcome now).rows.map GoalRow.id = t.rows.map GoalRow.id := by
  unfold close
  rw [List.map_map]
  exact List.map_congr_left fun row _ => row.closed_id id status outcome now

/-- Closing a goal leaves the other goals as they are, and none of them active anew. -/
theorem GoalTable.close_active (t : GoalTable K) (id : ℕ) {status : GoalStatus}
    (closing : status ≠ .active) (outcome : Dict K) (now : K) :
    (t.close id status outcome now).active = t.active.filter fun row => row.id != id := by
  unfold active close
  dsimp only
  induction t.rows with
  | nil => rfl
  | cons row rows ih =>
      rw [List.map_cons, List.filter_cons, List.filter_cons, ih]
      by_cases hit : row.id = id
      · have closed : (row.closed id status outcome now).isActive = false := by
          rw [GoalRow.closed, if_pos hit]
          exact beq_false_of_ne closing
        rw [closed]
        cases row.isActive with
        | true => simp [hit]
        | false => rfl
      · rw [GoalRow.closed, if_neg hit]
        cases row.isActive with
        | true => simp [hit]
        | false => rfl

theorem AtMostOneActive.close (one : AtMostOneActive t) (id : ℕ) {status : GoalStatus}
    (closing : status ≠ .active) (outcome : Dict K) (now : K) :
    AtMostOneActive (t.close id status outcome now) := by
  unfold AtMostOneActive
  rw [t.close_active id closing]
  exact (List.length_filter_le _ _).trans one

/-- Without its one active goal a table has none. -/
theorem AtMostOneActive.close_incumbent (one : AtMostOneActive t) (found : g ∈ t.active)
    (outcome : Dict K) (now : K) : (t.close g.id .abandoned outcome now).active = [] := by
  rw [t.close_active g.id (by decide)]
  obtain ⟨only, alone⟩ := List.length_eq_one_iff.mp
    (le_antisymm one (List.length_pos_of_mem found))
  rw [alone] at found ⊢
  rw [List.mem_singleton.mp found]
  simp

theorem AtMostOneActive.insert (idle : t.active = []) (added : t.insert? row = some u) :
    AtMostOneActive u := by
  unfold AtMostOneActive GoalTable.active
  have none : t.rows.filter GoalRow.isActive = [] := idle
  rw [GoalTable.insert?_rows added, List.filter_append, none]
  exact List.length_filter_le _ [row]

theorem promotes_insert (added : t.insert? row = some u) {new : GoalRow K}
    (promoted : Promotes t u new) : new = row := by
  have inside := promoted.1
  rw [GoalTable.insert?_rows added] at inside
  rcases List.mem_append.mp inside with old | new
  · exact absurd (List.mem_map_of_mem old) promoted.2
  · exact List.mem_singleton.mp new

theorem not_promotes_close {id : ℕ} {status : GoalStatus} {outcome : Dict K} {now : K}
    {new : GoalRow K} : ¬ Promotes t (t.close id status outcome now) new := by
  intro promoted
  have known := List.mem_map_of_mem (f := GoalRow.id) promoted.1
  rw [t.close_ids] at known
  exact promoted.2 known

theorem not_abandons_self : ¬ Abandons t t g g' := by
  rintro ⟨found, inside, same, abandoned⟩
  obtain ⟨stored, active⟩ := GoalTable.mem_active.mp found
  rw [t.eq_of_id inside stored same, active] at abandoned
  cases abandoned

/-- Closing a goal abandons at most that goal, and only where it closes it as abandoned. -/
theorem abandons_close {id : ℕ} {status : GoalStatus} {outcome : Dict K} {now : K}
    (abandoned : Abandons t (t.close id status outcome now) g g') :
    status = .abandoned ∧ g.id = id ∧ g'.resolvedAt = some now := by
  obtain ⟨found, inside, same, left⟩ := abandoned
  obtain ⟨row, stored, rfl⟩ := List.mem_map.mp inside
  rw [GoalRow.closed_id] at same
  obtain ⟨kept, active⟩ := GoalTable.mem_active.mp found
  obtain rfl := t.eq_of_id stored kept same
  by_cases hit : row.id = id
  · rw [GoalRow.closed, if_pos hit] at left ⊢
    exact ⟨left, hit, rfl⟩
  · rw [GoalRow.closed, if_neg hit, active] at left
    cases left

theorem abandons_insert {v : GoalTable K} (added : v.insert? row = some u)
    (active : row.status = .active) (abandoned : Abandons t u g g') : Abandons t v g g' := by
  obtain ⟨found, inside, same, status⟩ := abandoned
  rw [GoalTable.insert?_rows added] at inside
  rcases List.mem_append.mp inside with old | new
  · exact ⟨found, old, same, status⟩
  · rw [List.mem_singleton.mp new, active] at status
    cases status

end rows

namespace GoalArbiter
variable [Field K] [LinearOrder K] {a : GoalArbiter K ω} {urges : List (Urge K)}
  {mood : Option (Mood K)} {t u v : GoalTable K} {decision : Goal K} {row : GoalRow K}

omit [LinearOrder K] in
theorem promotable_promotes (promotable : a.Promotable urges mood decision)
    (promotion : IsPromotion decision row) :
    row.source ≠ sleepDrive ∧
      ∃ urge ∈ urges, row.source = urge.drive ∧ row.priority = a.priority urge mood := by
  obtain ⟨urge, inside, awake, source, priority⟩ := promotable.urged
  refine ⟨?_, urge, inside, promotion.1.trans source, promotion.2.1.trans priority⟩
  rw [promotion.1, source]
  exact beq_eq_false_iff_ne.mp awake

/-- A table reached without an insert judges as the unchanged one. -/
theorem Judged.refl (a : GoalArbiter K ω) (urges : List (Urge K)) (mood : Option (Mood K))
    (t : GoalTable K) : a.Judged urges mood t t where
  abandons _ _ abandoned := absurd abandoned not_abandons_self
  promotes _ promoted := absurd (List.mem_map_of_mem promoted.1) promoted.2

theorem Arbitrated.judged (ended : a.Arbitrated urges mood t u) : a.Judged urges mood t u := by
  cases ended with
  | kept => exact .refl a urges mood t
  | promoted promotable promotion added =>
      refine ⟨fun g g' abandoned => ?_, fun new promoted => ?_⟩
      · exact absurd (abandons_insert added promotion.2.2 abandoned) not_abandons_self
      · rw [promotes_insert added promoted]
        exact promotable_promotes promotable promotion
  | @abandoned decision incumbent _ closedAt found displaces =>
      refine ⟨fun g g' abandoned => ?_, fun new promoted => absurd promoted not_promotes_close⟩
      obtain ⟨-, hit, closed⟩ := abandons_close abandoned
      have same : g = incumbent := t.eq_of_id (GoalTable.mem_active.mp abandoned.1).1
        (GoalTable.mem_active.mp found).1 hit
      rw [same]
      exact ⟨decision, closedAt, closed, displaces,
        fun _ promoted => absurd promoted not_promotes_close⟩
  | @switched decision incumbent outcome closedAt row _ found displaces promotable promotion
      added =>
      have new (g : GoalRow K) (promoted : Promotes t u g) : g = row := by
        refine promotes_insert added ⟨promoted.1, ?_⟩
        rw [t.close_ids]
        exact promoted.2
      refine ⟨fun g g' abandoned => ?_, fun g promoted => ?_⟩
      · have closing := abandons_insert added promotion.2.2 abandoned
        obtain ⟨-, hit, closed⟩ := abandons_close closing
        have same : g = incumbent := t.eq_of_id (GoalTable.mem_active.mp abandoned.1).1
          (GoalTable.mem_active.mp found).1 hit
        rw [same]
        refine ⟨decision, closedAt, closed, displaces, fun g promoted => ?_⟩
        rw [new g promoted]
        exact ⟨promotion.1, promotion.2.1⟩
      · rw [new g promoted]
        exact promotable_promotes promotable promotion


/-! ### The calls of the single loop -/

/-- Arbiter and store read one clock, and it does not go back. -/
structure OneClock (a : GoalArbiter K ω) : Prop where
  same : a.store.nowFn = a.nowFn
  onward : a.store.toSessions.Onward a.nowFn

def database (a : GoalArbiter K ω) (w : ω) : Database Failure (GoalTable K) ℕ := a.store.db.get w

/-- Everyone else leaves the goals alone, and the time does not go back. -/
def elsewhere (a : GoalArbiter K ω) : Frame ω where
  rel w w' := a.database w' = a.database w ∧ a.nowFn w ≤ a.nowFn w'
  refl _ := ⟨rfl, le_refl _⟩
  trans ab bc := ⟨bc.1.trans ab.1, ab.2.trans bc.2⟩

/-- Between the transactions of an arbitration of `t` that began at the clock reading `start`. -/
structure Midway (a : GoalArbiter K ω) (urges : List (Urge K)) (mood : Option (Mood K))
    (t : GoalTable K) (start : K) (w : ω) : Prop where
  always : (a.database w).Always AtMostOneActive
  arbitrated : a.Arbitrated urges mood t (a.database w).tables
  onward : start ≤ a.nowFn w

variable {start : K} {w w' : ω} {r : Except Failure Unit}

variable (urges mood) in
theorem active_spec (clock : a.OneClock) (always : (a.database w).Always AtMostOneActive) :
    a.Midway urges mood (a.database w).tables (a.nowFn w) (a.store.active w).2 ∧
      ∀ goals, (a.store.active w).1 = .ok goals →
        (a.database (a.store.active w).2).tables = (a.database w).tables ∧
        goals = ((a.database w).tables.active.insertionSort
          fun a b => b.createdAt ≤ a.createdAt).map GoalRow.toGoal := by
  have ended := Sessions.scope_rule a.store.toSessions
    (Prog.reads fun t =>
      (t.1.active.insertionSort fun a b => b.createdAt ≤ a.createdAt).map GoalRow.toGoal)
    w (A := fun d => d.Always AtMostOneActive ∧ d.tables = (a.database w).tables)
    (B := fun goals d => d.tables = (a.database w).tables ∧
      goals = ((a.database w).tables.active.insertionSort
        fun a b => b.createdAt ≤ a.createdAt).map GoalRow.toGoal)
    (by
      rintro _ _ ⟨⟩
      exact ⟨⟨always.commit always.now, rfl⟩, rfl, rfl⟩)
    fun n => ⟨⟨always.now, always.before⟩, rfl⟩
  obtain ⟨⟨always', same⟩, loaded⟩ := ended
  refine ⟨⟨always', ?_, Sessions.scope_onward clock.onward _ w⟩, loaded⟩
  unfold database GoalStore.active
  rw [same]
  exact .kept

theorem Displaces.later [IsStrictOrderedRing K] {reference later created : K} {drive : String}
    (displaces : a.Displaces urges mood reference drive created decision)
    (onward : reference ≤ later) : a.Displaces urges mood later drive created decision :=
  ⟨displaces.dwelt.trans (sub_le_sub_right onward created), displaces.otherDrive,
    displaces.stronger⟩

/-- The abandonment of the incumbent; its return tells that it took effect. -/
theorem abandon_spec [IsStrictOrderedRing K] (clock : a.OneClock) {reference : K}
    {incumbent : GoalRow K} (mid : a.Midway urges mood t start w)
    (loaded : (a.database w).tables = t) (found : incumbent ∈ t.active)
    (displaces : a.Displaces urges mood reference incumbent.source incumbent.createdAt decision)
    (onward : reference ≤ a.nowFn w) (outcome : Dict K) :
    a.Midway urges mood t start (a.store.abandon incumbent.id outcome w).2 ∧
      ((a.store.abandon incumbent.id outcome w).1 = .ok () →
        (a.database (a.store.abandon incumbent.id outcome w).2).tables =
          t.close incumbent.id .abandoned outcome (a.nowFn w)) := by
  have stored : (t.row? incumbent.id).isSome = true :=
    List.find?_isSome.mpr ⟨incumbent, (GoalTable.mem_active.mp found).1, beq_self_eq_true _⟩
  obtain ⟨row, hit⟩ := Option.isSome_iff_exists.mp stored
  have one : AtMostOneActive (t.close incumbent.id .abandoned outcome (a.nowFn w)) := by
    have before := mid.always.now
    rw [loaded] at before
    exact before.close incumbent.id (by decide) outcome _
  have ended := Sessions.scope_rule a.store.toSessions
    (GoalStore.closeRow incumbent.id .abandoned outcome (a.store.nowFn w)) w
    (A := fun d => d.Always AtMostOneActive ∧ a.Arbitrated urges mood t d.tables)
    (B := fun _ d => d.tables = t.close incumbent.id .abandoned outcome (a.nowFn w))
    (by
      intro _ s ran
      have closed : s.1 = t.close incumbent.id .abandoned outcome (a.nowFn w) := by
        rw [GoalStore.closeRow, Prog.modify_apply, show (a.store.db.get w).tables = t from loaded,
          hit, clock.same] at ran
        cases ran
        rfl
      refine ⟨⟨mid.always.commit ?_, ?_⟩, closed⟩
      · rw [closed]
        exact one
      · change a.Arbitrated urges mood t s.1
        rw [closed]
        exact .abandoned found (displaces.later onward))
    fun n => ⟨⟨mid.always.now, mid.always.before⟩, mid.arbitrated⟩
  obtain ⟨⟨always, arbitrated⟩, told⟩ := ended
  exact ⟨⟨always, arbitrated, mid.onward.trans (Sessions.scope_onward clock.onward _ w)⟩,
    told ()⟩

omit [Field K] [LinearOrder K] in
theorem add_of_ok {row : ℕ → GoalRow K} {s s' : GoalTable K × ℕ} {added : GoalRow K}
    (ran : GoalStore.add row s = (.ok added, s')) :
    added = row s.2 ∧ s.1.insert? (row s.2) = some s'.1 := by
  unfold GoalStore.add at ran
  rw [Prog.reads_bind, Prog.modify_bind, Prog.reads_bind] at ran
  dsimp only at ran
  cases inserted : s.1.insert? (row s.2) with
  | none =>
      rw [inserted] at ran
      cases ran
  | some u =>
      rw [inserted] at ran
      cases ran
      exact ⟨rfl, rfl⟩

/-- The promotion, where no goal is active. -/
theorem promote_spec (clock : a.OneClock) (mid : a.Midway urges mood t start w)
    (idle : (a.database w).tables.active = [])
    (adding : ∀ row u, IsPromotion decision row →
      (a.database w).tables.insert? row = some u → a.Arbitrated urges mood t u) :
    a.Midway urges mood t start (a.store.promote decision w).2 := by
  have ended := Sessions.scope_rule a.store.toSessions (do
      let row ← GoalStore.add fun id => {
        id := id, source := decision.source, description := decision.description
        priority := decision.priority, plan := decision.plan
        createdAt := decision.createdAt.getD (a.store.nowFn w) }
      pure row.toGoal) w
    (A := fun d => d.Always AtMostOneActive ∧ a.Arbitrated urges mood t d.tables)
    (B := fun _ _ => True)
    (by
      intro _ s ran
      obtain ⟨row, s', ran, same⟩ := Prog.ok_of_bind ran
      cases same
      obtain ⟨rfl, inserted⟩ := add_of_ok ran
      exact ⟨⟨mid.always.commit (AtMostOneActive.insert idle inserted),
        adding _ _ ⟨rfl, rfl, rfl⟩ inserted⟩, trivial⟩)
    fun n => ⟨⟨mid.always.now, mid.always.before⟩, mid.arbitrated⟩
  exact ⟨ended.1.1, ended.1.2, mid.onward.trans (Sessions.scope_onward clock.onward _ w)⟩


/-- The switch to a decision that was taken against the goals of the table. -/
theorem switch_spec [IsStrictOrderedRing K] (clock : a.OneClock) {goals : List (Goal K)}
    {rows : List (GoalRow K)} {reference now : K} (mid : a.Midway urges mood t start w)
    (loaded : (a.database w).tables = t) (same : goals = rows.map GoalRow.toGoal)
    (perm : rows.Perm t.active) (past : reference ≤ a.nowFn w)
    (selected : a.select urges mood goals reference now = some decision) :
    a.Midway urges mood t start ((do
      a.displace goals.head? decision
      let promoted ← a.store.promote decision
      pure (some promoted)) w).2 := by
  have promotable := select_promotable selected
  subst same
  cases rows with
  | nil =>
      have idle : (a.database w).tables.active = [] := by
        rw [loaded]
        exact perm.nil_eq.symm
      change a.Midway urges mood t start
        ((a.store.promote decision >>= fun promoted => pure (some promoted)) w).2
      rw [Prog.bind_pure_apply]
      refine promote_spec clock mid idle fun row u promotion added => ?_
      rw [loaded] at added
      exact .promoted promotable promotion added
  | cons incumbent rest =>
      have found : incumbent ∈ t.active := perm.subset List.mem_cons_self
      obtain ⟨after, told⟩ := abandon_spec clock mid loaded found (select_displaces selected) past
        [("abandoned_for", .str decision.source)]
      change a.Midway urges mood t start ((do
        a.store.abandon incumbent.id [("abandoned_for", .str decision.source)]
        let promoted ← a.store.promote decision
        pure (some promoted)) w).2
      rcases ran : a.store.abandon incumbent.id [("abandoned_for", .str decision.source)] w with
        ⟨_ | _, w'⟩
      · rw [Prog.bind_of_error ran]
        rw [ran] at after
        exact after
      · rw [Prog.bind_of_ok ran, Prog.bind_pure_apply]
        rw [ran] at after told
        have closed := told rfl
        have one : AtMostOneActive t := loaded ▸ mid.always.now
        refine promote_spec clock after ?_ fun row u promotion added => ?_
        · rw [closed]
          exact one.close_incumbent found _ _
        · rw [closed] at added
          exact .switched found ((select_displaces selected).later past) promotable promotion added

variable (urges mood) in
theorem arbitrate_spec [IsStrictOrderedRing K] (clock : a.OneClock)
    (always : (a.database w).Always AtMostOneActive) (now : Option K)
    (past : ∀ n, now = some n → n ≤ a.nowFn w) :
    a.Midway urges mood (a.database w).tables (a.nowFn w) (a.arbitrate urges mood now w).2 := by
  obtain ⟨mid, loaded⟩ := active_spec urges mood clock always
  unfold arbitrate
  rcases ran : a.store.active w with ⟨r, w₁⟩
  rw [ran] at mid loaded
  cases r with
  | error e =>
      rw [Prog.bind_of_error ran]
      exact mid
  | ok goals =>
      rw [Prog.bind_of_ok ran, Prog.reads_bind]
      obtain ⟨same, sorted⟩ := loaded goals rfl
      have earlier : now.getD (a.nowFn w₁) ≤ a.nowFn w₁ := by
        cases now with
        | none => exact le_refl _
        | some n => exact (past n rfl).trans mid.onward
      cases selected : a.select urges mood goals (now.getD (a.nowFn w₁)) (a.nowFn w₁) with
      | none => exact mid
      | some decision =>
          exact switch_spec clock mid same sorted (List.perm_insertionSort _ _) earlier selected


/-! ### Runs -/

/-- One call of the loop, or something happening in the world around it. -/
inductive Call (K ω : Type) where
  | deliberate (urges : List (Urge K)) (mood : Option (Mood K)) (contents : List (WorkspaceItem K))
  | arbitrate (urges : List (Urge K)) (mood : Option (Mood K))
  | act (action : Action K) (goal : Goal K) (contents : List (WorkspaceItem K))
  | settle (goal : Goal K) (summary : String) (success : Bool)
  | elsewhere (change : ω → ω)

/-- What the arbiter is shown in the call. -/
def Call.shown : Call K ω → List (Urge K) × Option (Mood K)
  | .deliberate urges mood _ | .arbitrate urges mood => (urges, mood)
  | .act _ _ _ | .settle _ _ _ | .elsewhere _ => ([], none)

/-- Deliberation with this arbiter, on the same goals and the same clock. -/
def pursued (a : GoalArbiter K ω) (d : Deliberation K ω) : Deliberation K ω :=
  { d with
    arbitrate := fun urges mood now => a.arbitrate urges mood (some now)
    resolve := a.store.resolve
    clock := a.nowFn }

def call (a : GoalArbiter K ω) (d : Deliberation K ω) :
    Call K ω → Prog Failure (Deliberating K ω) Unit
  | .deliberate urges mood contents => do
    let _ ← (a.pursued d).deliberate urges mood contents none
    pure ()
  | .arbitrate urges mood => do
    let _ ← Deliberation.outside (a.arbitrate urges mood none)
    pure ()
  | .act action goal contents => do
    let _ ← (a.pursued d).act action goal contents
    pure ()
  | .settle goal summary success => do
    let _ ← (a.pursued d).settleToolAction goal summary success
    pure ()
  | .elsewhere change => Prog.modify fun s => { s with world := change s.world }

/-- The state after the calls, whether they returned or raised. -/
def calls (a : GoalArbiter K ω) (d : Deliberation K ω) (cs : List (Call K ω))
    (s : Deliberating K ω) : Deliberating K ω :=
  runSteps (fun c s => (a.call d c s).2) cs s

/-- Nobody around the loop writes goals or takes time backwards. -/
structure Undisturbed (a : GoalArbiter K ω) (d : Deliberation K ω) (cs : List (Call K ω)) :
    Prop where
  others : d.OthersKeep a.elsewhere
  elsewhere : ∀ change, .elsewhere change ∈ cs → ∀ w, a.elsewhere.rel w (change w)

/-- The goals as they were. -/
structure Untouched (a : GoalArbiter K ω) (t : GoalTable K) (s : Deliberating K ω) : Prop where
  always : (a.database s.world).Always AtMostOneActive
  same : (a.database s.world).tables = t

/-- The goals as they were, or judged since. -/
structure Steadfast (a : GoalArbiter K ω) (shown : List (Urge K) × Option (Mood K))
    (t : GoalTable K) (s : Deliberating K ω) : Prop where
  always : (a.database s.world).Always AtMostOneActive
  judged : a.Judged shown.1 shown.2 t (a.database s.world).tables

variable {d : Deliberation K ω} {s s' : Deliberating K ω}
  {shown : List (Urge K) × Option (Mood K)}

omit [Field K] in
theorem Untouched.aside (untouched : a.Untouched t s)
    (kept : (Deliberation.aside a.elsewhere).rel s s') : a.Untouched t s' := by
  refine ⟨?_, ?_⟩
  · rw [kept.2.1]
    exact untouched.always
  · rw [kept.2.1]
    exact untouched.same

theorem Untouched.steadfast (untouched : a.Untouched t s) : a.Steadfast shown t s := by
  refine ⟨untouched.always, ?_⟩
  rw [untouched.same]
  exact .refl a _ _ t

theorem Steadfast.aside (steadfast : a.Steadfast shown t s)
    (kept : (Deliberation.aside a.elsewhere).rel s s') : a.Steadfast shown t s' := by
  refine ⟨?_, ?_⟩
  · rw [kept.2.1]
    exact steadfast.always
  · rw [kept.2.1]
    exact steadfast.judged

/-- A call around the goals leaves them untouched. -/
theorem around_triple {α : Type} {p : Prog Failure (Deliberating K ω) α}
    (around : Prog.Within (Deliberation.aside a.elsewhere).rel p) :
    Prog.Triple (a.Untouched t) p (fun _ => a.Untouched t) (fun _ => a.Steadfast shown t) :=
  (Prog.Triple.of_keeps (around.keeps (F := Deliberation.aside a.elsewhere) fun _ _ moved => moved)
    fun _ _ pre kept => pre.aside kept).mono (fun _ pre => pre) (fun _ _ post => post)
    fun _ _ post => post.steadfast

/-- An arbitration, at a clock reading of before. -/
theorem arbitrate_triple [IsStrictOrderedRing K] (clock : a.OneClock) (urges : List (Urge K))
    (mood : Option (Mood K)) (now : Option K) :
    Prog.Triple (fun s => a.Untouched t s ∧ ∀ n, now = some n → n ≤ a.nowFn s.world)
      (Deliberation.outside (a.arbitrate urges mood now))
      (fun _ => a.Steadfast (urges, mood) t) (fun _ => a.Steadfast (urges, mood) t) := by
  refine .of_end fun s pre => ?_
  obtain ⟨⟨always, rfl⟩, past⟩ := pre
  have mid := arbitrate_spec urges mood clock always now past
  exact ⟨mid.always, mid.arbitrated.judged⟩

theorem deliberate_triple [IsStrictOrderedRing K] (clock : a.OneClock)
    (others : d.OthersKeep a.elsewhere) (urges : List (Urge K)) (mood : Option (Mood K))
    (contents : List (WorkspaceItem K)) :
    Prog.Triple (a.Untouched t) ((a.pursued d).deliberate urges mood contents none)
      (fun _ => a.Steadfast (urges, mood) t) (fun _ => a.Steadfast (urges, mood) t) := by
  have others : (a.pursued d).OthersKeep a.elsewhere :=
    ⟨others.router, others.recallEpisodes, others.writeEpisode⟩
  unfold Deliberation.deliberate
  refine .bind (Q := fun reference s => a.Untouched t s ∧
    ∀ n, some reference = some n → n ≤ a.nowFn s.world) (.reads fun s pre => ⟨pre, ?_⟩)
    fun reference => .bind (arbitrate_triple clock urges mood (some reference)) fun goal => ?_
  · rintro n ⟨⟩
    exact le_refl _
  · cases goal with
    | none => exact .pure fun _ post => post
    | some goal =>
        have rest : Prog.Within (Deliberation.aside a.elsewhere).rel (do
            let lastActed ← Prog.reads Deliberating.lastActed
            if (a.pursued d).due lastActed reference = false then pure { goal := some goal }
            else do
              let action ← (a.pursued d).finaliseAction ((a.pursued d).plan goal contents) goal
                contents
              pure { goal := some goal, action := some action } :
            Prog Failure (Deliberating K ω) (DeliberationResult K)) :=
          .bind (.reads _) fun _ => .ite (.pure _)
            (.bind (Deliberation.finaliseAction_aside others _ goal contents) fun _ => .pure _)
        exact .of_keeps (rest.keeps (F := Deliberation.aside a.elsewhere) fun _ _ moved => moved)
          fun _ _ pre kept => pre.aside kept

/-- A resolution abandons and promotes nothing. -/
theorem resolve_triple (id : ℕ) (outcome : Dict K) :
    Prog.Triple (a.Untouched t) (Deliberation.outside (a.store.resolve id outcome))
      (fun _ => a.Steadfast ([], none) t) (fun _ => a.Steadfast ([], none) t) := by
  refine .of_end fun s pre => ?_
  obtain ⟨always, rfl⟩ := pre
  have resolved (now : K) : a.Judged [] none (a.database s.world).tables
      ((a.database s.world).tables.close id .resolved outcome now) := by
    refine ⟨fun g g' abandoned => ?_, fun new promoted => absurd promoted not_promotes_close⟩
    cases (abandons_close abandoned).1
  have ended := Sessions.scope_rule a.store.toSessions
    (GoalStore.closeRow id .resolved outcome (a.store.nowFn s.world)) s.world
    (A := fun d => d.Always AtMostOneActive ∧
      a.Judged [] none (a.database s.world).tables d.tables)
    (B := fun _ _ => True)
    (by
      intro _ s' ran
      cases ran
      refine ⟨?_, trivial⟩
      dsimp only
      split
      · exact ⟨always.commit always.now, .refl _ _ _ _⟩
      · exact ⟨always.commit (always.now.close id (by decide) outcome _), resolved _⟩)
    fun n => ⟨⟨always.now, always.before⟩, .refl _ _ _ _⟩
  exact ⟨ended.1.1, ended.1.2⟩

theorem close_triple (goal : Goal K) (outcome : Dict K) :
    Prog.Triple (a.Untouched t) ((a.pursued d).close goal outcome)
      (fun _ => a.Steadfast ([], none) t) (fun _ => a.Steadfast ([], none) t) := by
  unfold Deliberation.close
  cases goal.id with
  | none => exact .pure fun _ pre => pre.steadfast
  | some id => exact resolve_triple id outcome

theorem advance_triple : Prog.Triple (a.Untouched t) (a.pursued d).advance
    (fun _ => a.Untouched t) (fun _ => a.Steadfast shown t) :=
  .modify fun _ pre => ⟨pre.always, pre.same⟩

theorem act_triple (others : d.OthersKeep a.elsewhere) (action : Action K)
    (goal : Goal K) (contents : List (WorkspaceItem K)) :
    Prog.Triple (a.Untouched t) ((a.pursued d).act action goal contents)
      (fun _ => a.Steadfast ([], none) t) (fun _ => a.Steadfast ([], none) t) := by
  have others : (a.pursued d).OthersKeep a.elsewhere :=
    ⟨others.router, others.recallEpisodes, others.writeEpisode⟩
  exact .bind advance_triple fun _ =>
    .bind (around_triple (Deliberation.execute_aside others action contents)) fun summary =>
    .bind (around_triple (Deliberation.remember_aside others summary)) fun _ =>
    .bind (close_triple goal _) fun _ => .pure fun _ post => post

theorem settle_triple (goal : Goal K) (summary : String) (success : Bool) :
    Prog.Triple (a.Untouched t) ((a.pursued d).settleToolAction goal summary success)
      (fun _ => a.Steadfast ([], none) t) (fun _ => a.Steadfast ([], none) t) :=
  .bind advance_triple fun _ => .bind (close_triple goal _) fun _ => .pure fun _ post => post

theorem call_triple [IsStrictOrderedRing K] (clock : a.OneClock)
    (others : d.OthersKeep a.elsewhere) (c : Call K ω)
    (apart : ∀ change, c = .elsewhere change → ∀ w, a.elsewhere.rel w (change w)) :
    Prog.Triple (a.Untouched t) (a.call d c)
      (fun _ => a.Steadfast c.shown t) (fun _ => a.Steadfast c.shown t) := by
  cases c with
  | deliberate urges mood contents =>
      exact .bind (deliberate_triple clock others urges mood contents) fun _ =>
        .pure fun _ post => post
  | arbitrate urges mood =>
      refine .bind ((arbitrate_triple clock urges mood none).mono (fun _ pre => ⟨pre, nofun⟩)
        (fun _ _ post => post) fun _ _ post => post) fun _ => .pure fun _ post => post
  | act action goal contents =>
      exact .bind (act_triple others action goal contents) fun _ => .pure fun _ post => post
  | settle goal summary success =>
      exact .bind (settle_triple goal summary success) fun _ => .pure fun _ post => post
  | elsewhere change =>
      refine .modify fun s pre => ?_
      have moved : (Deliberation.aside a.elsewhere).rel s { s with world := change s.world } :=
        ⟨rfl, apart change rfl s.world⟩
      exact (pre.aside moved).steadfast

/-- Over every run of the loop's calls, with any transaction failing in any way: no version
of the goal table has two active goals, and each call's abandonments and promotions are
those the arbiter may make. -/
theorem run_steadfast [IsStrictOrderedRing K] (a : GoalArbiter K ω) (d : Deliberation K ω)
    (cs : List (Call K ω)) (clock : a.OneClock) (apart : a.Undisturbed d cs)
    (s : Deliberating K ω) (start : (a.database s.world).Always AtMostOneActive) :
    ∀ before c after, cs = before ++ c :: after →
      a.Steadfast c.shown (a.database (a.calls d before s).world).tables
        (a.calls d (before ++ [c]) s) := by
  have step (c : Call K ω) (member : c ∈ cs) (s : Deliberating K ω)
      (always : (a.database s.world).Always AtMostOneActive) :
      a.Steadfast c.shown (a.database s.world).tables (a.call d c s).2 := by
    refine (call_triple clock apart.others c ?_).at_end ⟨always, rfl⟩
    rintro change rfl
    exact apart.elsewhere change member
  intro before c after split
  have reached : (a.database (a.calls d before s).world).Always AtMostOneActive := by
    refine runSteps_invariant_at (I := fun s => (a.database s.world).Always AtMostOneActive)
      (C := fun c _ => c ∈ cs) (fun c s member always => (step c member s always).always)
      ?_ start split
    intro earlier c' later split'
    rw [split']
    exact List.mem_append_right _ List.mem_cons_self
  have last : a.calls d (before ++ [c]) s = (a.call d c (a.calls d before s)).2 :=
    runSteps_append _ before [c] s
  rw [last]
  refine step c ?_ _ reached
  rw [split]
  exact List.mem_append_right _ List.mem_cons_self

end GoalArbiter

/-! ### A switch after the dwell -/

namespace Switching
open GoalArbiter

/-- The goals, and a clock that each transaction moves by a second. -/
abbrev World := Database Failure (GoalTable ℚ) ℕ × ℚ

def arbiter : GoalArbiter ℚ World where
  store :=
    { db := ⟨Prod.fst, fun d w => (d, w.2), fun _ _ => rfl⟩
      nowFn := Prod.snd
      meanwhile := fun w => (w.1, w.2 + 1)
      apart := fun _ => rfl }
  minDwell := 3
  margin := frac 1 10
  arousalWeight := 1
  nowFn := Prod.snd

def deliberation : Deliberation ℚ World where
  arbitrate _ _ _ := pure none
  router := none
  resolve _ _ := pure ()
  recallEpisodes _ _ := pure []
  writeEpisode _ := pure ()
  clock := Prod.snd
  maxTokens := 1
  recallK := 1
  minInterval := 0
  codeMaxTokens := 1
  codeMaxChars := 1

def curious : Urge ℚ := ⟨"curiosity", frac 8 10, frac 5 10, frac 6 10⟩
def bored : Urge ℚ := ⟨"boredom", frac 9 10, frac 5 10, frac 8 10⟩

/-- A promotion, a switch within the dwell, and one past it. -/
def urging : List (Call ℚ World) :=
  [.arbitrate [curious] none, .arbitrate [curious, bored] none, .arbitrate [curious, bored] none]

def fresh : Deliberating ℚ World where
  world := (⟨⟨[], List.nodup_nil⟩, 1, [], []⟩, 0)

def statuses (calls : List (Call ℚ World)) : List GoalStatus :=
  (arbiter.calls deliberation calls fresh).world.1.tables.rows.map GoalRow.status

end Switching

open Switching GoalArbiter in
theorem switch_waits_for_dwell :
    arbiter.Steadfast (urging[2]).shown
        (arbiter.calls deliberation (urging.take 2) fresh).world.1.tables
        (arbiter.calls deliberation urging fresh) ∧
      statuses (urging.take 2) = [.active] ∧ statuses urging = [.abandoned, .active] := by
  refine ⟨run_steadfast arbiter deliberation urging ?_ ?_ fresh ?_ (urging.take 2) urging[2] []
    rfl, by decide +kernel, by decide +kernel⟩
  · exact ⟨rfl, fun w => le_add_of_nonneg_right zero_le_one, fun _ _ => rfl⟩
  · refine ⟨⟨nofun, fun _ _ => arbiter.elsewhere.refl, fun _ => arbiter.elsewhere.refl⟩, ?_⟩
    intro change member
    simp [urging] at member
  · exact ⟨Nat.zero_le 1, List.forall_mem_nil _⟩

end Johnny
