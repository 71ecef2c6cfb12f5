import AsyncResource.Pool.Accounts
import AsyncResource.Pool.Discard

namespace AsyncResource.Pool

/-!
# What an acquire hands out

An acquire that takes a resource from the idle queue looks at its `verify_at` and updates its info
record.  The manager serves waiters from the same queue and does neither, so the record of a resource
that goes through a waiter lags behind; and that of a resource whose acquire was dropped while it was
created or verified is ahead.

* `Journal.accounted` — the invariant of `Accounts` in every run.
* `Proper` — the resource was checked, and its record is up to date.
* `hand_over_proper` — it is, for resources that never went through a waiter, exactly if no acquire
  counted them in vain.
* `hand_over_improper` — a waiter gets a resource that is due for verification, and an acquire one
  whose record counts an acquire that was dropped.
-/

open Interleaving

variable {E : Type} {cfg : PoolConfig} {ch : Choice E} {sh' : Shared}

namespace Journal.Accounted

variable {j : Journal E} {entries : List Entry}

/-! ### Moves that count -/

variable {i : ℕ} {started : Instant} {lock : LockId} {res : Resource}

/-- The lock of a task, as long as some task has its guard, needs no account of its own. -/
theorem guarded_on {log : List Entry} {tasks : List (TaskPc E)} {t : TaskPc E} (hin : t ∈ tasks)
    (hg : t.guarded = some lock) (hlen : sh'.store.heap.length = j.world.shared.store.heap.length)
    (k : LockId) (hk : some lock = some k ∨ j.world.shared.store.heap.length ≤ k)
    (hnone : ∀ t' ∈ tasks, t'.guarded ≠ some k) (r : Resource) (hr : sh'.store.res k = some r) :
    Account sh'.store log k r 0 := by
  rcases hk with hk | hk
  · exact absurd (hg.trans hk) (hnone t hin)
  · exact absurd (Store.lt_of_res hr) (Nat.not_lt.mpr (hlen.trans_le hk))

theorem Store.length_modify (s : Store) (lock : LockId) (f : Inner Resource → Inner Resource) :
    (s.modify lock f).heap.length = s.heap.length := List.length_modify _ _ _

/-- A task acts on the lock it guards, and it or a task it creates goes on with the guard. -/
theorem own {t next : TaskPc E} {spawned : List (TaskPc E)} {sh' : Shared} (h : j.Accounted)
    (hb : j.world.Balanced false) (ht : j.world.tasks[i]? = some t) (hg : t.guarded = some lock)
    (hmove : Moves j (some lock) entries sh')
    (hlen : sh'.store.heap.length = j.world.shared.store.heap.length)
    (hon : ∃ t' ∈ next :: spawned, t'.guarded = some lock)
    (hnext : ∀ t' ∈ next :: spawned, t'.Accounted sh' (j.log ++ entries) ∧
      ∀ started, t'.started = some started → started ≤ j.world.shared.now) :
    Journal.Accounted {
      world := j.world.setTask i { shared := sh', next, spawned }
      log := j.log ++ entries } := by
  obtain ⟨t', hin, hg'⟩ := hon
  refine h.setTask hb ht hmove (fun k hk => ?_) (fun k hk => ?_) hnext
    (guarded_on hin hg' hlen)
  · cases hk
    exact mine_sole hb ht lock hg
  · exact hg.symm.trans hk

theorem infoMut_res {s : Store} {f : ResourceInfo → ResourceInfo} :
    (s.infoMut lock f).res lock = s.res lock := by
  unfold Store.infoMut Store.modify Store.res
  dsimp only
  rw [List.getElem?_modify_eq]
  cases s.heap[lock]? <;> rfl

/-- An acquire takes a resource that is not due. -/
theorem take (h : j.Accounted) (hb : j.world.Balanced false)
    (ht : j.world.tasks[i]? = some (.gotIdle started lock))
    (hdue : ¬ (j.world.shared.store.info lock).verifyAt.any (· < j.world.shared.now) = true) :
    Journal.Accounted {
      world := j.world.setTask i {
        shared := { j.world.shared with
          store := j.world.shared.store.infoMut lock (·.acquired j.world.shared.now) }
        next := .resource started lock }
      log := j.log ++ [] } := by
  obtain ⟨l, hl, -⟩ := hb.task_held ht rfl
  have hinfo := Store.info_eq (Store.infoMut_get hl (·.acquired j.world.shared.now))
  have hmove : Moves j (some lock) [] { j.world.shared with
      store := j.world.shared.store.infoMut lock (·.acquired j.world.shared.now) } :=
    ⟨Store.modify_leaves lock _, rfl, (by rintro _ ⟨⟩), (by rintro _ ⟨⟩)⟩
  refine h.own hb ht rfl hmove (Store.length_modify _ _ _) ⟨_, List.mem_singleton_self _, rfl⟩
    fun t' hin => ?_
  obtain rfl := List.mem_singleton.mp hin
  have hnow : started ≤ j.world.shared.now := h.started i _ ht started rfl
  refine ⟨fun r hr => ⟨?_, fun _ => .inr ⟨j.world.shared.now, ?_, hnow, .inl ?_⟩⟩, fun s hs => ?_⟩
  · rw [List.append_nil]
    refine Account.count (h.tasks i _ ht lock rfl r (infoMut_res.symm.trans hr)) ?_
    rw [hinfo, Store.info_eq hl]
    rfl
  · show (Store.info _ lock).lastAcquire = _
    rw [hinfo]
    rfl
  · show Option.any _ (Store.info _ lock).verifyAt = _
    rw [hinfo]
    rw [Store.info_eq hl] at hdue
    exact Bool.eq_false_iff.mpr hdue
  · cases hs
    exact hnow

/-- An acquire takes a resource that is due, and has it verified. -/
theorem takeToVerify (h : j.Accounted) (hb : j.world.Balanced false)
    (ht : j.world.tasks[i]? = some (.gotIdle started lock))
    (hres : (j.world.shared.store.infoMut lock (·.acquired j.world.shared.now)).res lock = some res) :
    Journal.Accounted {
      world := j.world.setTask i {
        shared := { j.world.shared with
          store := (j.world.shared.store.infoMut lock (·.acquired j.world.shared.now)).takeOut lock }
        next := .resolve started (.verify lock res) }
      log := j.log ++ [] } := by
  obtain ⟨l, hl, -⟩ := hb.task_held ht rfl
  have hget := Store.infoMut_get hl (·.acquired j.world.shared.now)
  have hinfo : ((j.world.shared.store.infoMut lock (·.acquired j.world.shared.now)).takeOut lock).info
      lock = l.info.acquired j.world.shared.now := Store.info_eq (Store.modify_get hget Inner.take)
  have hmove : Moves j (some lock) [] { j.world.shared with
      store := (j.world.shared.store.infoMut lock (·.acquired j.world.shared.now)).takeOut lock } :=
    ⟨.trans (Store.modify_leaves lock _) (Store.modify_leaves lock _), rfl, (by rintro _ ⟨⟩), (by rintro _ ⟨⟩)⟩
  refine h.own hb ht rfl hmove ?_ ⟨_, List.mem_singleton_self _, rfl⟩ fun t' hin => ?_
  · exact (Store.length_modify _ _ _).trans (Store.length_modify _ _ _)
  obtain rfl := List.mem_singleton.mp hin
  have hnow : started ≤ j.world.shared.now := h.started i _ ht started rfl
  refine ⟨⟨?_, j.world.shared.now, ?_, hnow, le_refl _⟩, fun s hs => ?_⟩
  · rw [List.append_nil]
    refine Account.count (h.tasks i _ ht lock rfl res (infoMut_res.symm.trans hres)) ?_
    show (Store.info _ lock).acquireCount = _
    rw [hinfo, Store.info_eq hl]
    rfl
  · show (Store.info _ lock).lastAcquire = _
    rw [hinfo]
    rfl
  · cases hs
    exact hnow

/-- An acquire creates a resource. -/
theorem create (h : j.Accounted) (hb : j.world.Balanced false)
    (ht : j.world.tasks[i]? = some (.create started)) :
    Journal.Accounted {
      world := j.world.setTask i {
        shared := (j.world.shared.create cfg).1
        next := .resolve started (.create (j.world.shared.create cfg).2) }
      log := j.log ++ [] } := by
  have hnew : (j.world.shared.create cfg).1.store.heap[j.world.shared.store.heap.length]? = _ :=
    List.getElem?_concat_length
  have hmove : Moves j none [] (j.world.shared.create cfg).1 :=
    ⟨Store.append_leaves rfl rfl, rfl, (by rintro _ ⟨⟩), (by rintro _ ⟨⟩)⟩
  have hnow : started ≤ j.world.shared.now := h.started i _ ht started rfl
  refine h.setTask hb ht hmove (by rintro _ ⟨⟩) (by rintro _ ⟨⟩) (fun t' hin => ?_) fun k hk hnone r hr => ?_
  · obtain rfl := List.mem_singleton.mp hin
    have hinfo := Store.info_eq hnew
    refine ⟨⟨?_, ?_, j.world.shared.now, ?_, hnow⟩, fun s hs => ?_⟩
    · show (Store.info _ j.world.shared.store.heap.length).acquireCount = 1
      rw [hinfo]
      rfl
    · show (Store.info _ j.world.shared.store.heap.length).verifyAt = none
      rw [hinfo]
      rfl
    · show (Store.info _ j.world.shared.store.heap.length).lastAcquire = _
      rw [hinfo]
      rfl
    · cases hs
      exact hnow
  · have hne : j.world.shared.store.heap.length ≠ k :=
      fun he => hnone _ (List.mem_singleton_self _) (congrArg some he)
    have hlt := Store.lt_of_res hr
    have hlen : (j.world.shared.create cfg).1.store.heap.length =
        j.world.shared.store.heap.length + 1 := List.length_append
    have hge := hk.resolve_left (by rintro ⟨⟩)
    exact absurd (Nat.le_antisymm hge (Nat.le_of_lt_succ (hlt.trans_eq hlen))) hne

/-- What a future leaves of its lock when it resolves to its guard. -/
theorem fill_get {s : Store} {l : Inner Resource} (hl : s.heap[lock]? = some l) (now : Instant) :
    (s.fill lock now).heap[lock]? = some ((l.replace s.ledger.created).infoMut
      fun info => { info with createdAt := some now }) :=
  Store.modify_get hl fun l => (l.replace s.ledger.created).infoMut
    fun info => { info with createdAt := some now }

theorem putBack_get {s : Store} {l : Inner Resource} (hl : s.heap[lock]? = some l) (res : Resource)
    (verified : Bool) : (s.putBack lock res verified).heap[lock]? = some ((l.replace res).infoMut
      fun info => { info with expired := !verified }) :=
  Store.modify_get hl fun l => (l.replace res).infoMut fun info => { info with expired := !verified }

/-- A new resource is not in the journal. -/
theorem unknown (h : j.Accounted) :
    ∀ e ∈ j.log, e.counted ≠ some j.world.shared.store.ledger.created :=
  fun e he hres => lt_irrefl _ (h.known e he _ hres)

/-- A create future resolves to its guard. -/
theorem moves_fill {entries : List Entry}
    (hentries : ∀ e ∈ entries, ∀ res, e.counted = some res →
      res = j.world.shared.store.ledger.created) :
    Moves j (some lock) entries { j.world.shared with
      store := j.world.shared.store.fill lock j.world.shared.now } where
  leaves := Store.fill_leaves _ lock _
  now := rfl
  entered e he res hres := .inr (hentries e he res hres)
  known e he res hres := Nat.lt_succ_of_le (le_of_eq (hentries e he res hres))

/-- The creation of an acquire that is still there. -/
theorem created (h : j.Accounted) (hb : j.world.Balanced false)
    (ht : j.world.tasks[i]? = some (.resolve started (.create lock))) :
    Journal.Accounted {
      world := j.world.setTask i {
        shared := { j.world.shared with
          store := j.world.shared.store.fill lock j.world.shared.now }
        next := .resource started lock }
      log := j.log ++ [] } := by
  obtain ⟨l, hl, -⟩ : ∃ l, j.world.shared.store.heap[lock]? = some l ∧ _ := hb.task_held ht rfl
  have hget := fill_get hl j.world.shared.now
  have hinfo := Store.info_eq hget
  obtain ⟨hcount, hverify, time, htime, hle⟩ := h.tasks i _ ht
  rw [Store.info_eq hl] at hcount hverify htime
  refine h.own hb ht rfl (moves_fill (by rintro _ ⟨⟩)) (Store.length_modify _ _ _)
    ⟨_, List.mem_singleton_self _, rfl⟩ fun t' hin => ?_
  obtain rfl := List.mem_singleton.mp hin
  refine ⟨fun r hr => ⟨?_, fun _ => .inr ⟨time, ?_, hle, .inl ?_⟩⟩, fun s hs => ?_⟩
  · have hnew : r = j.world.shared.store.ledger.created :=
      (Option.some.inj ((Store.res_eq hget).symm.trans hr)).symm
    rw [List.append_nil, hnew]
    refine Account.fresh ?_ h.unknown
    show (Store.info _ lock).acquireCount = 1
    rw [hinfo]
    exact hcount
  · show (Store.info _ lock).lastAcquire = _
    rw [hinfo]
    exact htime
  · show Option.any _ (Store.info _ lock).verifyAt = _
    rw [hinfo]
    show Option.any _ l.info.verifyAt = _
    rw [hverify]
    rfl
  · cases hs
    exact h.started i _ ht started rfl

/-- The creation of an acquire that was dropped. -/
theorem createdInVain (h : j.Accounted) (hb : j.world.Balanced false)
    (ht : j.world.tasks[i]? = some (.completing (.create lock))) :
    Journal.Accounted {
      world := j.world.setTask i {
        shared := { j.world.shared with
          store := j.world.shared.store.fill lock j.world.shared.now }
        next := .releasing j.world.shared.now (.start lock) .done }
      log := j.log ++ [.forgone j.world.shared.store.ledger.created] } := by
  obtain ⟨l, hl, -⟩ : ∃ l, j.world.shared.store.heap[lock]? = some l ∧ _ := hb.task_held ht rfl
  have hget := fill_get hl j.world.shared.now
  have hinfo := Store.info_eq hget
  have hcount : (j.world.shared.store.info lock).acquireCount = 1 := h.tasks i _ ht
  rw [Store.info_eq hl] at hcount
  have hmove : Moves j (some lock) [.forgone j.world.shared.store.ledger.created]
      { j.world.shared with store := j.world.shared.store.fill lock j.world.shared.now } := by
    refine moves_fill fun e he res hres => ?_
    obtain rfl := List.mem_singleton.mp he
    exact (Option.some.inj hres).symm
  refine h.own hb ht rfl hmove (Store.length_modify _ _ _) ⟨_, List.mem_singleton_self _, rfl⟩
    fun t' hin => ?_
  obtain rfl := List.mem_singleton.mp hin
  refine ⟨fun k hk r hr => ?_, fun s hs => ?_⟩
  · cases hk
    have hnew : r = j.world.shared.store.ledger.created :=
      (Option.some.inj ((Store.res_eq hget).symm.trans hr)).symm
    rw [hnew]
    have hfresh : Account (j.world.shared.store.fill lock j.world.shared.now) j.log lock
        j.world.shared.store.ledger.created 1 := by
      refine Account.fresh ?_ h.unknown
      rw [hinfo]
      exact hcount
    exact hfresh.forgo rfl
  · cases hs
    exact le_refl _

/-- A future resolves to an error, and its guard is dropped. -/
theorem failed {t next : TaskPc E} {fut : ResourceFuture} {o : Option Resource} (h : j.Accounted)
    (hb : j.world.Balanced false) (ht : j.world.tasks[i]? = some t)
    (hfut : t.claims false = fut.claims) (hg : t.guarded = some fut.lock)
    (hnext : next.isPlain = true) (hfree : next.guarded = none) (hstarted : next.started = none) :
    Journal.Accounted {
      world := j.world.setTask i {
        shared := { j.world.shared with store := j.world.shared.store.fail fut.lock o }
        next }
      log := j.log ++ [] } := by
  have hempty := hb.future_empty ht hfut
  have hmove : Moves j (some fut.lock) []
      { j.world.shared with store := j.world.shared.store.fail fut.lock o } :=
    ⟨Store.fail_leaves _ fut.lock o, rfl, (by rintro _ ⟨⟩), (by rintro _ ⟨⟩)⟩
  refine h.setTask hb ht hmove (fun k hk => ?_) (fun k hk => ?_) (fun t' hin => ?_)
    fun k hk hnone r hr => ?_
  · cases hk
    exact mine_sole hb ht fut.lock hg
  · exact hg.symm.trans hk
  · obtain rfl := List.mem_singleton.mp hin
    exact ⟨TaskPc.accounted_of_free hnext hfree, fun s hs => by cases hstarted.symm.trans hs⟩
  · have hfail : j.world.shared.store.Inherits none (j.world.shared.store.fail fut.lock o) :=
      Store.fail_inherits fut.lock o
    obtain ⟨k', hk', hr', -⟩ := hfail k r hr
    obtain rfl : k' = k := hk'.resolve_right (by rintro ⟨⟩)
    rcases hk with hk | hge
    · cases hk
      cases hempty.symm.trans hr'
    · exact absurd (Store.lt_of_res hr') (Nat.not_lt.mpr hge)

/-- What a verification enters. -/
def verdict (res : Resource) (verified : Bool) (now : Instant) : List Entry :=
  if verified then [.verified res now] else []

theorem verdict_counted {res r : Resource} {verified : Bool} {now : Instant} :
    ∀ e ∈ verdict res verified now, e.counted ≠ some r := by
  unfold verdict
  intro e he
  split at he
  · obtain rfl := List.mem_singleton.mp he
    nofun
  · cases he

theorem moves_putBack (res : Resource) (verified : Bool) :
    Moves j (some lock) (verdict res verified j.world.shared.now)
      { j.world.shared with store := j.world.shared.store.putBack lock res verified } where
  leaves := Store.modify_leaves lock _
  now := rfl
  entered e he _ hr := absurd hr (verdict_counted e he)
  known e he _ hr := absurd hr (verdict_counted e he)

theorem putBack_info {s : Store} {l : Inner Resource} (hl : s.heap[lock]? = some l) (res : Resource)
    (verified : Bool) :
    (s.putBack lock res verified).info lock = { l.info with expired := !verified } :=
  Store.info_eq (putBack_get hl res verified)

theorem putBack_res {s : Store} {l : Inner Resource} {r : Resource} (hl : s.heap[lock]? = some l)
    (verified : Bool) (hr : (s.putBack lock res verified).res lock = some r) : r = res :=
  (Option.some.inj ((Store.res_eq (putBack_get hl res verified)).symm.trans hr)).symm

/-- The verification of an acquire that is still there. -/
theorem verified (h : j.Accounted) (hb : j.world.Balanced false)
    (ht : j.world.tasks[i]? = some (.resolve started (.verify lock res))) (verified : Bool) :
    Journal.Accounted {
      world := j.world.setTask i {
        shared := { j.world.shared with store := j.world.shared.store.putBack lock res verified }
        next := .resource started lock }
      log := j.log ++ verdict res verified j.world.shared.now } := by
  obtain ⟨l, hl, -⟩ : ∃ l, j.world.shared.store.heap[lock]? = some l ∧ _ := hb.task_held ht rfl
  have hinfo := putBack_info hl res verified
  obtain ⟨haccount, time, htime, hle, hle'⟩ := h.tasks i _ ht
  rw [Store.info_eq hl] at htime
  refine h.own hb ht rfl (moves_putBack res verified) (Store.length_modify _ _ _)
    ⟨_, List.mem_singleton_self _, rfl⟩ fun t' hin => ?_
  obtain rfl := List.mem_singleton.mp hin
  refine ⟨fun r hr => ?_, fun s hs => ?_⟩
  · obtain rfl := putBack_res hl verified hr
    refine ⟨haccount.append ?_ _ verdict_counted, fun hexpired => .inr ⟨time, ?_, hle, .inr ?_⟩⟩
    · show (Store.info _ lock).acquireCount = _
      rw [hinfo, Store.info_eq hl]
    · show (Store.info _ lock).lastAcquire = _
      rw [hinfo]
      exact htime
    · have hverified : verified = true := by
        have hexpired' : (!verified) = false := by
          have hflag : (Store.info _ lock).expired = false := hexpired
          rw [hinfo] at hflag
          exact hflag
        simpa using hexpired'
      refine ⟨j.world.shared.now, hle', List.mem_append_right _ ?_⟩
      rw [verdict, if_pos hverified]
      exact List.mem_singleton_self _
  · cases hs
    exact h.started i _ ht started rfl

/-- A verification that no acquire waits for. -/
theorem verifiedInVain (h : j.Accounted) (hb : j.world.Balanced false)
    (ht : j.world.tasks[i]? = some (.completing (.verify lock res))) (verified : Bool) :
    Journal.Accounted {
      world := j.world.setTask i {
        shared := { j.world.shared with store := j.world.shared.store.putBack lock res verified }
        next := .releasing j.world.shared.now (.start lock) .done }
      log := j.log ++ verdict res verified j.world.shared.now } := by
  obtain ⟨l, hl, -⟩ : ∃ l, j.world.shared.store.heap[lock]? = some l ∧ _ := hb.task_held ht rfl
  have hinfo := putBack_info hl res verified
  have haccount : Account j.world.shared.store j.log lock res 0 := h.tasks i _ ht
  refine h.own hb ht rfl (moves_putBack res verified) (Store.length_modify _ _ _)
    ⟨_, List.mem_singleton_self _, rfl⟩ fun t' hin => ?_
  obtain rfl := List.mem_singleton.mp hin
  refine ⟨fun k hk r hr => ?_, fun s hs => ?_⟩
  · cases hk
    obtain rfl := putBack_res hl verified hr
    refine haccount.append ?_ _ verdict_counted
    show (Store.info _ lock).acquireCount = _
    rw [hinfo, Store.info_eq hl]
  · cases hs
    exact le_refl _

/-- A move by which only the journal changes, about the resource of the task. -/
theorem moves_enter {e : Entry} (hb : j.world.Balanced false) (hhas : j.world.Has lock res) (he : e.counted = some res) :
    Moves j (some lock) [e] j.world.shared where
  leaves := .refl
  now := rfl
  entered e' he' r hr := by
    obtain rfl := List.mem_singleton.mp he'
    cases he.symm.trans hr
    exact .inl ⟨lock, rfl, hhas⟩
  known e' he' r hr := by
    obtain rfl := List.mem_singleton.mp he'
    cases he.symm.trans hr
    exact hb.has_lt hhas

/-- An acquire has its resource: it returns it or, if the verification said no, gives it back. -/
theorem returned {moved : Moved E (TaskPc E)} (h : j.Accounted) (hb : j.world.Balanced false)
    (ht : j.world.tasks[i]? = some (.resource started lock))
    (hstep : (TaskPc.resource started lock).step cfg ch j.world.shared = some moved) :
    Journal.Accounted {
      world := j.world.setTask i moved
      log := j.log ++ ((TaskPc.resource started lock : TaskPc E).entry ch j.world.shared).toList } := by
  have hsome : (j.world.shared.store.res lock).isSome = true :=
    Books.fits hb lock .full (World.mem_claims ht (Multiset.mem_singleton_self _))
  obtain ⟨res, hres⟩ := Option.isSome_iff_exists.mp hsome
  have haccount := (h.tasks i _ ht res hres).1
  have hsame : ∀ r, j.world.shared.store.res lock = some r → r = res :=
    fun r hr => (Option.some.inj (hres.symm.trans hr)).symm
  simp only [TaskPc.step] at hstep
  simp only [TaskPc.entry, hres, Option.map_some, Option.toList_some]
  split at hstep
  case isTrue hexpired =>
    cases hstep
    rw [if_pos hexpired]
    refine h.own hb ht rfl (moves_enter hb (.inl hres) rfl) rfl
      ⟨_, List.mem_singleton_self _, rfl⟩ fun t' hin => ?_
    obtain rfl := List.mem_singleton.mp hin
    refine ⟨fun k hk r hr => ?_, fun s hs => ?_⟩
    · cases hk
      rw [hsame r hr]
      exact haccount.forgo rfl
    · cases hs
      exact h.started i _ ht started rfl
  case isFalse hexpired =>
    cases hstep
    rw [if_neg hexpired]
    refine h.own hb ht rfl (moves_enter hb (.inl hres) rfl) rfl
      ⟨.managed lock, by simp, rfl⟩ fun t' hin => ?_
    simp only [List.mem_cons, List.not_mem_nil, or_false] at hin
    rcases hin with rfl | rfl
    · exact ⟨TaskPc.accounted_of_free rfl rfl, by rintro _ ⟨⟩⟩
    · refine ⟨fun k hk r hr => ?_, by rintro _ ⟨⟩⟩
      cases hk
      rw [hsame r hr]
      exact haccount.hand rfl

/-- An acquire receives a resource through its waiter. -/
theorem received {w : WaiterId} {moved : Moved E (TaskPc E)} (h : j.Accounted)
    (hb : j.world.Balanced false) (ht : j.world.tasks[i]? = some (.waiting started w))
    (hsent : j.world.shared.waiter w = .sent lock)
    (hstep : (TaskPc.waiting started w).step cfg ch j.world.shared = some moved) :
    Journal.Accounted {
      world := j.world.setTask i moved
      log := j.log ++ ((TaskPc.waiting started w : TaskPc E).entry ch j.world.shared).toList } := by
  have hnobody : ∀ (k : ℕ) t, j.world.tasks[k]? = some t → t.guarded ≠ some lock :=
    fun k t hk hg => hb.sent_sole hk hg w hsent
  simp only [TaskPc.step, hsent, Cell.poll] at hstep
  cases hstep
  simp only [TaskPc.entry, hsent]
  have hsome : (j.world.shared.store.res lock).isSome = true :=
    Books.fits hb lock .full (Shared.mem_posted hsent)
  obtain ⟨res, hres⟩ := Option.isSome_iff_exists.mp hsome
  rw [hres, Option.map_some, Option.toList_some]
  have hmove : Moves j (some lock) [.received res]
      (j.world.shared.setWaiter w .closed) := by
    have henter : Moves j (some lock) [.received res] j.world.shared :=
      moves_enter hb (.inl hres) rfl
    exact ⟨henter.leaves, henter.now, henter.entered, henter.known⟩
  refine h.setTask hb ht hmove (fun k hk n t' hn hg => ?_) (by rintro _ ⟨⟩) (fun t' hin => ?_)
    (guarded_on (List.mem_singleton_self _) rfl rfl)
  · cases hk
    exact absurd hg (hnobody n t' hn)
  · obtain rfl := List.mem_singleton.mp hin
    refine ⟨fun r hr => ⟨?_, fun _ => .inl ?_⟩, fun s hs => ?_⟩
    · obtain rfl : r = res := (Option.some.inj (hres.symm.trans hr)).symm
      exact (h.free lock hnobody r hres).receive rfl
    · obtain rfl : r = res := (Option.some.inj (hres.symm.trans hr)).symm
      exact List.mem_append_right _ (List.mem_singleton_self _)
    · cases hs
      exact h.started i _ ht started rfl

/-- An acquire is dropped while its resource is created or verified. -/
theorem abandoned {fut : ResourceFuture} (h : j.Accounted) (hb : j.world.Balanced false)
    (ht : j.world.tasks[i]? = some (.resolve started fut)) :
    Journal.Accounted {
      world := j.world.setTask i {
        shared := j.world.shared
        next := .sentinel
        spawned := [.completing fut] }
      log := j.log ++ ((TaskPc.resolve started fut : TaskPc E).callEntry .drop).toList } := by
  cases fut with
  | create lock =>
    obtain ⟨hcount, -⟩ := h.tasks i _ ht
    have hmove : Moves j (some lock) [] j.world.shared := ⟨.refl, rfl, (by rintro _ ⟨⟩), (by rintro _ ⟨⟩)⟩
    refine h.own hb ht rfl hmove rfl
      ⟨.completing (.create lock), by simp, rfl⟩ fun t' hin => ?_
    simp only [List.mem_cons, List.not_mem_nil, or_false] at hin
    rcases hin with rfl | rfl
    · exact ⟨TaskPc.accounted_of_free rfl rfl, (by rintro _ ⟨⟩)⟩
    · exact ⟨hcount, (by rintro _ ⟨⟩)⟩
  | verify lock res =>
    obtain ⟨haccount, -⟩ := h.tasks i _ ht
    have hhas : j.world.Has lock res := .inr ⟨i, _, ht, rfl⟩
    refine h.own hb ht rfl (moves_enter hb hhas rfl) rfl
      ⟨.completing (.verify lock res), by simp, rfl⟩ fun t' hin => ?_
    simp only [List.mem_cons, List.not_mem_nil, or_false] at hin
    rcases hin with rfl | rfl
    · exact ⟨TaskPc.accounted_of_free rfl rfl, (by rintro _ ⟨⟩)⟩
    · exact ⟨haccount.forgo rfl, (by rintro _ ⟨⟩)⟩

/-! ### The whole pool -/

/-- **A step of the manager.** -/
theorem manage {moved : Moved E Manager} (h : j.Accounted) (hb : j.world.Balanced false)
    (hstep : j.world.manager.step cfg ch j.world.shared = some moved) :
    Journal.Accounted { world := j.world.setManager moved, log := j.log ++ [] } := by
  have hinherits := (Manager.step_uncounted hstep).inherits
  have hmove : Moves j j.world.manager.pc.guarded [] moved.shared :=
    ⟨Manager.step_leaves hstep, (Manager.step_uncounted hstep).now, (by rintro _ ⟨⟩), (by rintro _ ⟨⟩)⟩
  -- what the manager has in its guard is counted by no task
  have hmine : ∀ lock, j.world.manager.pc.guarded = some lock → ∀ res,
      j.world.shared.store.res lock = some res →
        Account j.world.shared.store j.log lock res 0 :=
    fun lock hm => h.free lock fun k t ht hg => hb.manager_sole ht hg hm
  refine ⟨fun k t ht => ?_, fun lock hfree res hres => ?_, fun k t ht s hs => ?_,
    h.known_append hmove⟩
  · rcases World.setManager_cases ht with hin | ht'
    · rcases Manager.step_verifies hstep with hnone | ⟨lock, due, res, hpc, hres, hstore, hspawned⟩
      · rw [hnone] at hin
        cases hin
      · rw [hspawned] at hin
        obtain rfl := List.mem_singleton.mp hin
        have haccount := hmine lock (by rw [hpc]; rfl) res hres
        refine haccount.append ?_ [] (fun _ he => absurd he List.not_mem_nil)
        show (moved.shared.store.info lock).acquireCount = _
        rw [hstore]
        obtain ⟨l, hl, -⟩ := Option.bind_eq_some_iff.mp hres
        have hget : (j.world.shared.store.takeOut lock).heap[lock]? = some l.take :=
          Store.modify_get hl Inner.take
        rw [Store.info_eq hget, Store.info_eq hl]
        rfl
    · exact h.other hb hmove ht' fun lock hg => hb.manager_sole ht' hg
  · obtain ⟨k, hk, hres', hcount⟩ := hinherits lock res hres
    refine Account.append ?_ hcount [] (fun _ he => absurd he List.not_mem_nil)
    by_cases hm : j.world.manager.pc.guarded = some k
    · exact hmine k hm res hres'
    · obtain rfl : k = lock := hk.resolve_right hm
      exact h.free k (fun n t ht => hfree n t (World.setManager_task ht)) res hres'
  · show s ≤ moved.shared.now
    rw [hmove.now]
    rcases World.setManager_cases ht with hin | ht'
    · obtain ⟨fut, rfl⟩ := Manager.step_spawned hstep t hin
      cases hs
    · exact h.started k t ht' s hs

/-- **A task's own step.** -/
theorem run {t : TaskPc E} {moved : Moved E (TaskPc E)} (h : j.Accounted)
    (hb : j.world.Balanced false) (hb' : (j.world.setTask i moved).Balanced false)
    (ht : j.world.tasks[i]? = some t) (hstep : t.step cfg ch j.world.shared = some moved) :
    Journal.Accounted {
      world := j.world.setTask i moved
      log := j.log ++ (t.entry ch j.world.shared).toList } := by
  have hplainly : t.isPlain = true → moved.next.isPlain = true →
      Journal.Accounted { world := j.world.setTask i moved, log := j.log ++ [] } :=
    fun hp hn => h.plain hb hb' ht hp (TaskPc.step_leaves hstep) (TaskPc.step_plainly hstep hp hn)
  cases t with
  | gotIdle started lock =>
    by_cases hn : moved.next.isPlain = true
    · exact hplainly rfl hn
    · simp only [TaskPc.step] at hstep
      split at hstep
      case isTrue hdue =>
        split at hstep
        · obtain ⟨⟨sh', fut⟩, hverify, heq⟩ := Option.map_eq_some_iff.mp hstep
          obtain ⟨res, hres, hfut⟩ := Option.map_eq_some_iff.mp hverify
          cases hfut
          cases heq
          exact h.takeToVerify hb ht hres
        · cases hstep
          exact absurd rfl hn
      case isFalse hdue =>
        cases hstep
        exact h.take hb ht hdue
  | create started =>
    cases hstep
    exact h.create hb ht
  | resolve started fut =>
    simp only [TaskPc.step] at hstep
    cases fut with
    | create lock =>
      cases hout : ch.outcome with
      | ok verified =>
        rw [hout] at hstep
        cases hstep
        exact h.created hb ht
      | error err =>
        rw [hout] at hstep
        cases hstep
        exact h.failed hb ht rfl rfl rfl rfl rfl
    | verify lock res =>
      simp only [TaskPc.entry]
      cases hout : ch.outcome with
      | ok verified =>
        rw [hout] at hstep
        cases hstep
        cases verified with
        | true => exact h.verified hb ht true
        | false => exact h.verified hb ht false
      | error err =>
        rw [hout] at hstep
        cases hstep
        exact h.failed hb ht rfl rfl rfl rfl rfl
  | completing fut =>
    simp only [TaskPc.step] at hstep
    cases fut with
    | create lock =>
      simp only [TaskPc.entry]
      cases hout : ch.outcome with
      | ok verified =>
        rw [hout] at hstep
        cases hstep
        exact h.createdInVain hb ht
      | error err =>
        rw [hout] at hstep
        cases hstep
        exact h.failed hb ht rfl rfl rfl rfl rfl
    | verify lock res =>
      simp only [TaskPc.entry]
      cases hout : ch.outcome with
      | ok verified =>
        rw [hout] at hstep
        cases hstep
        cases verified with
        | true => exact h.verifiedInVain hb ht true
        | false => exact h.verifiedInVain hb ht false
      | error err =>
        rw [hout] at hstep
        cases hstep
        exact h.failed hb ht rfl rfl rfl rfl rfl
  | resource started lock => exact h.returned hb ht hstep
  | waiting started w =>
    cases hw : j.world.shared.waiter w with
    | sent lock => exact h.received hb ht hw hstep
    | waiting | abandoned | closed =>
      simp only [TaskPc.entry, hw]
      refine hplainly rfl ?_
      simp only [TaskPc.step, hw, Cell.poll] at hstep
      cases hstep
      all_goals rfl
  | pool | finished | managed | done => cases hstep
  | _ => exact hplainly rfl (TaskPc.step_isPlain hstep rfl)

/-- **A call on a task.** -/
theorem call {t : TaskPc E} {call : Call} {moved : Moved E (TaskPc E)} (h : j.Accounted)
    (hb : j.world.Balanced false) (hb' : (j.world.setTask i moved).Balanced false)
    (ht : j.world.tasks[i]? = some t) (hcall : t.call j.world.shared call = some moved) :
    Journal.Accounted {
      world := j.world.setTask i moved
      log := j.log ++ (t.callEntry call).toList } := by
  by_cases hplain : t.isPlain = true
  · have hentry : (t.callEntry call).toList = [] := by
      unfold TaskPc.callEntry
      split
      · cases hplain
      · rfl
    rw [hentry]
    exact h.plain hb hb' ht hplain (TaskPc.call_leaves hcall) (TaskPc.call_plainly hcall hplain)
  · cases t with
    | resolve started fut =>
      cases call with
      | drop =>
        cases hcall
        exact h.abandoned hb ht
      | acquire | clone | drain | discard => cases hcall
    | resource | completing => cases call <;> cases hcall
    | _ => exact absurd rfl hplain

theorem step {j' : Journal E} {a : Action E} (h : j.Accounted) (hb : j.world.Balanced false)
    (hstep : j.step cfg a = some j') : j'.Accounted := by
  have hb' : j'.world.Balanced false :=
    World.step_balanced (by rintro ⟨⟩) (Journal.step_world hstep) hb
  cases a with
  | tick dur =>
    cases hstep
    refine ⟨fun k t ht => ?_, h.free, fun k t ht s hs => ?_, h.known⟩
    · have hsame : t.Accounted { j.world.shared with now := j.world.shared.now + dur } (j.log ++ []) :=
        (h.tasks k t ht).frame [] (fun _ _ => ⟨rfl, rfl⟩) (Nat.le_add_right _ dur)
          fun _ _ _ _ _ he => absurd he List.not_mem_nil
      rw [List.append_nil] at hsame
      exact hsame
    · exact (h.started k t ht s hs).trans (Nat.le_add_right _ _)
  | call i call =>
    obtain ⟨t, ht, hcall⟩ := Option.bind_eq_some_iff.mp hstep
    obtain ⟨moved, hmoved, rfl⟩ := Option.map_eq_some_iff.mp hcall
    exact h.call hb hb' ht hmoved
  | run i ch =>
    obtain ⟨t, ht, hrun⟩ := Option.bind_eq_some_iff.mp hstep
    obtain ⟨moved, hmoved, rfl⟩ := Option.map_eq_some_iff.mp hrun
    exact h.run hb hb' ht hmoved
  | manage ch =>
    simp only [Journal.step] at hstep
    obtain ⟨world, hworld, rfl⟩ := Option.map_eq_some_iff.mp hstep
    obtain ⟨moved, hmoved, rfl⟩ := Option.map_eq_some_iff.mp hworld
    have hmanage := h.manage hb hmoved
    rw [List.append_nil] at hmanage
    exact hmanage

end Journal.Accounted

theorem accounted_init : Journal.Accounted ({} : Journal E) where
  tasks i t ht := by
    cases i with
    | zero => cases ht; exact TaskPc.accounted_of_free rfl rfl
    | succ i => cases ht
  free lock _ res hres := by cases hres
  started i t ht s hs := by
    cases i with
    | zero => cases ht; cases hs
    | succ i => cases ht
  known e he := absurd he List.not_mem_nil

theorem Journal.accounted {j : Journal E} (h : (journal cfg).Reachable j) : j.Accounted := by
  refine h.invariant (motive := Journal.Accounted) (fun j hinit => ?_) fun j a j' hr ih hstep => ?_
  · subst hinit
    exact accounted_init
  · exact ih.step (World.loosely_balanced (Journal.reachable_world hr)) hstep

/-! ### Hand-overs -/

/-- **A proper hand-over** by an acquire that began at `started`: it took the resource from the idle
    queue before its `verify_at`, or had it verified since; it updated `last_acquire`; and
    `acquire_count` is the number of times `acquire` returned the resource. -/
structure Proper (j : Journal E) (started : Instant) (lock : LockId) (res : Resource) : Prop where
  taken : Taken j.world.shared.store j.log started lock res
  counted : (j.world.shared.store.info lock).acquireCount = j.log.count (.handed res)

/-- **What acquires hand out**: a resource that no acquire received through a waiter is handed out
    properly exactly if no acquire counted it without returning it. -/
theorem hand_over_proper {j j' : Journal E} {i : ℕ} {started : Instant} {lock : LockId}
    {res : Resource} (h : (journal cfg).Reachable j)
    (ht : j.world.tasks[i]? = some (.resource started lock))
    (hres : j.world.shared.store.res lock = some res) (hstep : j.step cfg (.run i ch) = some j')
    (hend : j'.world.tasks[i]? = some (.finished none)) (hdirect : .received res ∉ j.log) :
    Proper j' started lock res ↔ .forgone res ∉ j.log := by
  obtain ⟨haccount, htaken⟩ := (Journal.accounted h).tasks i _ ht res hres
  obtain ⟨t, ht', hrun⟩ := Option.bind_eq_some_iff.mp hstep
  obtain ⟨moved, hmoved, rfl⟩ := Option.map_eq_some_iff.mp hrun
  cases ht.symm.trans ht'
  have hself : some moved.next = some (.finished none) := (World.setTask_self ht).symm.trans hend
  simp only [TaskPc.step] at hmoved
  simp only [TaskPc.entry, hres, Option.map_some, Option.toList_some]
  by_cases hexpired : (j.world.shared.store.info lock).expired = true
  · rw [if_pos hexpired] at hmoved
    cases hmoved
    cases hself
  · rw [if_neg hexpired] at hmoved ⊢
    cases hmoved
    have hright := haccount.right_iff hdirect
    constructor
    · intro hproper
      exact hright.mp hproper.counted
    · intro hforgone
      refine ⟨?_, hright.mpr hforgone⟩
      obtain ⟨time, htime, hle, hdue⟩ :=
        (htaken (Bool.eq_false_iff.mpr hexpired)).resolve_left hdirect
      refine ⟨time, htime, hle, hdue.imp id ?_⟩
      rintro ⟨time', hge, hin⟩
      exact ⟨time', hge, List.mem_append_left _ hin⟩

/-! ### Runs -/

/-- The `Managed` is dropped, and an acquire takes the resource again. -/
def againRun : List (Action Unit) :=
  acquired ++ .call 2 .drop :: steps 2 5 ++ .call 0 .acquire :: steps 3 5

/-- An acquire waits.  The resource is released, its `verify_at` passes, and then the manager serves
    the waiter. -/
def overdueRun : List (Action Unit) :=
  acquired ++ .call 0 .acquire :: steps 3 9 ++ .call 2 .drop :: steps 2 5 ++ .tick 200 :: turns 14 ++
    steps 3 1

/-- An acquire is dropped while it creates a resource; another one takes the resource. -/
def forgoneRun : List (Action Unit) :=
  .call 0 .acquire :: steps 1 6 ++ .call 1 .drop :: steps 2 6 ++ .call 0 .acquire :: steps 3 5

/-- The pool of `keepingConfig 0` after a run. -/
def journalAfter (run : List (Action Unit)) : Journal Unit :=
  (journal (keepingConfig 0)).after (fun _ _ => True) {} run

theorem hand_over_proper_again :
    Proper (journalAfter (againRun ++ steps 3 1)) 0 0 0 ↔
      .forgone 0 ∉ (journalAfter againRun).log :=
  hand_over_proper (System.reachVia_after againRun rfl (by decide))
    (show (journalAfter againRun).world.tasks[3]? = some (.resource 0 0) by decide) (by decide)
    (show (journalAfter againRun).step (keepingConfig 0) (.run 3 {}) =
      some (journalAfter (againRun ++ steps 3 1)) by decide) (by decide) (by decide)

/-- **Improper hand-overs**: a waiter gets a resource whose `verify_at` has passed and that was never
    verified, its `last_acquire` and `acquire_count` not updated; and the first acquire to return a
    resource finds that it was acquired twice. -/
theorem hand_over_improper :
    (∃ j : Journal Unit, (journal (keepingConfig 0)).Reachable j ∧
      j.world.tasks[3]? = some (.finished none) ∧ j.world.tasks[4]? = some (.managed 0) ∧
      j.log = [.handed 0, .received 0, .handed 0] ∧
      (j.world.shared.store.info 0).verifyAt = some 100 ∧ j.world.shared.now = 200 ∧
      (j.world.shared.store.info 0).lastAcquire = some 0 ∧
      (j.world.shared.store.info 0).acquireCount = 1) ∧
    ∃ j : Journal Unit, (journal (keepingConfig 0)).Reachable j ∧
      j.world.tasks[3]? = some (.finished none) ∧ j.world.tasks[4]? = some (.managed 0) ∧
      j.log = [.forgone 0, .handed 0] ∧ (j.world.shared.store.info 0).acquireCount = 2 := by
  constructor
  · exact ⟨journalAfter (overdueRun ++ steps 3 1),
      System.reachVia_after (overdueRun ++ steps 3 1) rfl (by decide), by decide, by decide,
      by decide, by decide, by decide, by decide, by decide⟩
  · exact ⟨journalAfter (forgoneRun ++ steps 3 1),
      System.reachVia_after (forgoneRun ++ steps 3 1) rfl (by decide), by decide, by decide,
      by decide, by decide⟩

end AsyncResource.Pool
