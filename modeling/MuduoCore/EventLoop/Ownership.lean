import MuduoCore.Lib.Transition
import Mathlib.Logic.Function.Basic

/-!
# One loop per thread

`src/CurrentThread.cpp` with the constructor and the destructor of `src/EventLoop.cpp`. Whether a thread
is that of a loop is asked by comparing thread ids. The kernel gives the id of a thread that has ended
to another one, and the thread keeps its own id and its loop in variables of its own, which it loses
with its end.
-/

namespace MuduoCore

inductive Life where
  | unborn
  | running (tid : Nat)
  | ended
  deriving DecidableEq, Repr

/-- `creator` is the thread that executed the constructor. The code knows its id only. -/
structure OwnedLoop (θ : Type*) where
  threadId : Nat
  creator : θ
  deriving DecidableEq

/-- `table` is the kernel's, of the ids in use. Loops are given by their addresses, `gettids` counts the
system calls of each thread, and `exited` says that `LOG_FATAL` was reached. -/
structure Process (θ : Type*) where
  life : θ → Life
  table : Nat → Option θ
  cachedTid : θ → Nat
  loopInThisThread : θ → Option Nat
  loops : Nat → Option (OwnedLoop θ)
  gettids : θ → Nat
  exited : Bool

inductive ProcessAction (θ : Type*) where
  | spawn (thread : θ) (tid : Nat)
  | finish (thread : θ)
  | isInLoopThread (thread : θ) (loop : Nat)
  | construct (thread : θ) (loop : Nat)
  | destroy (thread : θ) (loop : Nat)

namespace Process

variable {θ : Type*}

def new : Process θ where
  life _ := .unborn
  table _ := none
  cachedTid _ := 0
  loopInThisThread _ := none
  loops _ := none
  gettids _ := 0
  exited := false

/-- `::syscall(SYS_gettid)`. -/
def gettid (p : Process θ) (thread : θ) : Nat :=
  match p.life thread with
  | .running tid => tid
  | _ => 0

def Running (p : Process θ) (thread : θ) : Prop := p.gettid thread ≠ 0

instance (p : Process θ) (thread : θ) : Decidable (p.Running thread) :=
  inferInstanceAs (Decidable (_ ≠ _))

variable [DecidableEq θ]

def cacheTid (p : Process θ) (thread : θ) : Process θ :=
  if p.cachedTid thread = 0 then
    { p with
      cachedTid := Function.update p.cachedTid thread (p.gettid thread)
      gettids := Function.update p.gettids thread (p.gettids thread + 1) }
  else p

/-- `CurrentThread::tid` on a thread. -/
def tid (p : Process θ) (thread : θ) : Nat × Process θ :=
  let p := if p.cachedTid thread = 0 then p.cacheTid thread else p
  (p.cachedTid thread, p)

def isInLoopThread (p : Process θ) (thread : θ) (loop : OwnedLoop θ) : Bool × Process θ :=
  (loop.threadId == (p.tid thread).1, (p.tid thread).2)

/-- `EventLoop::EventLoop`. -/
def construct (p : Process θ) (thread : θ) (loop : Nat) : Process θ :=
  let called := p.tid thread
  match called.2.loopInThisThread thread with
  | some _ => { called.2 with exited := true }
  | none =>
      { called.2 with
        loops := Function.update called.2.loops loop (some ⟨called.1, thread⟩)
        loopInThisThread := Function.update called.2.loopInThisThread thread (some loop) }

/-- `EventLoop::~EventLoop`. -/
def destroy (p : Process θ) (thread : θ) (loop : Nat) : Process θ :=
  { p with
    loops := Function.update p.loops loop none
    loopInThisThread := Function.update p.loopInThisThread thread none }

def move (p : Process θ) : ProcessAction θ → Option (Process θ)
  | .spawn thread tid =>
      guarded (p.life thread = .unborn ∧ tid ≠ 0 ∧ p.table tid = none)
        { p with
          life := Function.update p.life thread (.running tid)
          table := Function.update p.table tid (some thread) }
  | .finish thread =>
      guarded (p.Running thread)
        { p with
          life := Function.update p.life thread .ended
          table := Function.update p.table (p.gettid thread) none }
  | .isInLoopThread thread loop =>
      match p.loops loop with
      | none => none
      | some l => guarded (p.Running thread) (p.isInLoopThread thread l).2
  | .construct thread loop =>
      guarded (p.Running thread ∧ p.loops loop = none) (p.construct thread loop)
  | .destroy thread loop =>
      guarded (p.Running thread ∧ p.loops loop ≠ none) (p.destroy thread loop)

def system : System (Process θ) (ProcessAction θ) where
  init p := p = new
  step p action := if p.exited then none else p.move action

/-! ### Ids -/

/-- An id in use belongs to one thread, and a thread that has asked for its id has it right. -/
structure Identified (p : Process θ) : Prop where
  running : ∀ thread tid, p.life thread = .running tid → tid ≠ 0 ∧ p.table tid = some thread
  table : ∀ thread tid, p.table tid = some thread → p.life thread = .running tid
  unborn : ∀ thread, p.life thread = .unborn → p.cachedTid thread = 0
  cached : ∀ thread tid, p.life thread = .running tid → p.cachedTid thread ≠ 0 →
    p.cachedTid thread = tid
  gettids_eq : ∀ thread, p.gettids thread = if p.cachedTid thread = 0 then 0 else 1
  loops : ∀ loop l, p.loops loop = some l →
    p.life l.creator = .running l.threadId ∨ p.life l.creator = .ended

section Ids

variable {p p' : Process θ} {thread : θ}

omit [DecidableEq θ] in
theorem exists_of_running (h : p.Running thread) :
    p.life thread = .running (p.gettid thread) := by
  unfold Running gettid at *
  split at h
  · rename_i tid hlife
    rw [hlife]
  · exact absurd rfl h

omit [DecidableEq θ] in
theorem gettid_eq {tid : Nat} (hlife : p.life thread = .running tid) : p.gettid thread = tid := by
  simp only [gettid, hlife]

theorem tid_eq_cacheTid (p : Process θ) (thread : θ) :
    p.tid thread = ((p.cacheTid thread).cachedTid thread, p.cacheTid thread) := by
  unfold tid cacheTid
  split
  · rfl
  · rfl

/-- The id that a thread gets is the kernel's, from its cache or not. -/
theorem Identified.cacheTid (h : p.Identified) (hrunning : p.Running thread) :
    (p.cacheTid thread).Identified ∧ (p.cacheTid thread).cachedTid thread = p.gettid thread ∧
      (p.cacheTid thread).life = p.life ∧ (p.cacheTid thread).loops = p.loops ∧
      (p.cacheTid thread).loopInThisThread = p.loopInThisThread := by
  have hlife := exists_of_running hrunning
  unfold Process.cacheTid
  split
  · rename_i hzero
    refine ⟨⟨h.running, h.table, ?_, ?_, ?_, h.loops⟩, Function.update_self .., rfl, rfl, rfl⟩
    · intro other hunborn
      have hne : other ≠ thread := by
        rintro rfl
        rw [hlife] at hunborn
        cases hunborn
      simp only [Function.update_of_ne hne]
      exact h.unborn other hunborn
    · intro other tid hother hcached
      by_cases heq : other = thread
      · subst heq
        simp only [Function.update_self]
        exact gettid_eq hother
      · simp only [Function.update_of_ne heq] at hcached ⊢
        exact h.cached other tid hother hcached
    · intro other
      by_cases heq : other = thread
      · subst heq
        simp only [Function.update_self]
        rw [h.gettids_eq, if_pos hzero, if_neg hrunning]
      · simp only [Function.update_of_ne heq]
        exact h.gettids_eq other
  · rename_i hcached
    exact ⟨h, h.cached thread _ hlife hcached, rfl, rfl, rfl⟩

theorem Identified.spawn (h : p.Identified) {tid : Nat} (hunborn : p.life thread = .unborn)
    (hpos : tid ≠ 0) (hfree : p.table tid = none) :
    Identified { p with
      life := Function.update p.life thread (.running tid)
      table := Function.update p.table tid (some thread) } := by
  have hzero := h.unborn thread hunborn
  refine ⟨?_, ?_, ?_, ?_, h.gettids_eq, ?_⟩
  · intro other tid' hlife
    by_cases heq : other = thread
    · subst heq
      simp only [Function.update_self] at hlife
      obtain rfl := Life.running.inj hlife
      exact ⟨hpos, Function.update_self ..⟩
    · simp only [Function.update_of_ne heq] at hlife
      obtain ⟨hpos', htable⟩ := h.running other tid' hlife
      have hne : tid' ≠ tid := by
        rintro rfl
        rw [hfree] at htable
        cases htable
      exact ⟨hpos', by simp only [Function.update_of_ne hne]; exact htable⟩
  · intro other tid' htable
    by_cases heq : tid' = tid
    · subst heq
      simp only [Function.update_self] at htable
      obtain rfl := Option.some.inj htable
      exact Function.update_self ..
    · simp only [Function.update_of_ne heq] at htable
      have hlife := h.table other tid' htable
      have hne : other ≠ thread := by
        rintro rfl
        rw [hunborn] at hlife
        cases hlife
      simp only [Function.update_of_ne hne]
      exact hlife
  · intro other hother
    by_cases heq : other = thread
    · rw [heq]
      exact hzero
    · simp only [Function.update_of_ne heq] at hother
      exact h.unborn other hother
  · intro other tid' hlife hcached
    by_cases heq : other = thread
    · rw [heq] at hcached
      exact absurd hzero hcached
    · simp only [Function.update_of_ne heq] at hlife
      exact h.cached other tid' hlife hcached
  · intro loop l hloop
    have hne : l.creator ≠ thread := by
      intro heq
      rcases h.loops loop l hloop with hlife | hlife
      · rw [heq, hunborn] at hlife
        cases hlife
      · rw [heq, hunborn] at hlife
        cases hlife
    simp only [Function.update_of_ne hne]
    exact h.loops loop l hloop

theorem Identified.finish (h : p.Identified) (hrunning : p.Running thread) :
    Identified { p with
      life := Function.update p.life thread .ended
      table := Function.update p.table (p.gettid thread) none } := by
  have hlife := exists_of_running hrunning
  refine ⟨?_, ?_, ?_, ?_, h.gettids_eq, ?_⟩
  · intro other tid hother
    by_cases heq : other = thread
    · subst heq
      simp only [Function.update_self] at hother
      cases hother
    · simp only [Function.update_of_ne heq] at hother
      obtain ⟨hpos, htable⟩ := h.running other tid hother
      have hne : tid ≠ p.gettid thread := by
        rintro rfl
        rw [(h.running thread _ hlife).2] at htable
        exact heq (Option.some.inj htable).symm
      exact ⟨hpos, by simp only [Function.update_of_ne hne]; exact htable⟩
  · intro other tid htable
    by_cases heq : tid = p.gettid thread
    · subst heq
      simp only [Function.update_self] at htable
      cases htable
    · simp only [Function.update_of_ne heq] at htable
      have hother := h.table other tid htable
      have hne : other ≠ thread := by
        rintro rfl
        exact heq (gettid_eq hother).symm
      simp only [Function.update_of_ne hne]
      exact hother
  · intro other hother
    by_cases heq : other = thread
    · subst heq
      simp only [Function.update_self] at hother
      cases hother
    · simp only [Function.update_of_ne heq] at hother
      exact h.unborn other hother
  · intro other tid hother hcached
    by_cases heq : other = thread
    · subst heq
      simp only [Function.update_self] at hother
      cases hother
    · simp only [Function.update_of_ne heq] at hother
      exact h.cached other tid hother hcached
  · intro loop l hloop
    by_cases heq : l.creator = thread
    · rw [heq]
      exact .inr (Function.update_self ..)
    · simp only [Function.update_of_ne heq]
      exact h.loops loop l hloop

end Ids

/-! ### What a step can do -/

section Steps

variable {p p' : Process θ} {thread : θ}

theorem move_of_step {action : ProcessAction θ} (hstep : system.step p action = some p') :
    p.exited = false ∧ p.move action = some p' := by
  simp only [system] at hstep
  split at hstep
  · cases hstep
  · rename_i hexited
    exact ⟨Bool.eq_false_iff.mpr hexited, hstep⟩

theorem move_isInLoopThread {loop : Nat}
    (hmove : p.move (.isInLoopThread thread loop) = some p') :
    p.Running thread ∧ p' = p.cacheTid thread := by
  simp only [move] at hmove
  split at hmove
  · cases hmove
  · obtain ⟨hrunning, rfl⟩ := guarded_eq_some.mp hmove
    refine ⟨hrunning, ?_⟩
    rw [isInLoopThread, tid_eq_cacheTid]

/-- The constructor fails when the thread has a loop, and else the loop belongs to the thread. -/
theorem construct_eq (h : p.Identified) (hrunning : p.Running thread) (loop : Nat) :
    p.construct thread loop =
      if (p.loopInThisThread thread).isSome then { p.cacheTid thread with exited := true }
      else { p.cacheTid thread with
        loops := Function.update p.loops loop (some ⟨p.gettid thread, thread⟩)
        loopInThisThread := Function.update p.loopInThisThread thread (some loop) } := by
  obtain ⟨-, htid, -, hloops, hown⟩ := h.cacheTid hrunning
  unfold construct
  rw [tid_eq_cacheTid]
  dsimp only
  cases hcase : p.loopInThisThread thread with
  | some other => simp [hown, hcase]
  | none => simp [hown, hcase, htid, hloops]

theorem Identified.construct (h : p.Identified) (hrunning : p.Running thread) (loop : Nat) :
    (p.construct thread loop).Identified := by
  obtain ⟨hcached, -, hlife, -, -⟩ := h.cacheTid hrunning
  rw [construct_eq h hrunning]
  split
  · exact ⟨hcached.running, hcached.table, hcached.unborn, hcached.cached, hcached.gettids_eq,
      hcached.loops⟩
  · refine ⟨hcached.running, hcached.table, hcached.unborn, hcached.cached, hcached.gettids_eq, ?_⟩
    intro other l hother
    dsimp only at hother ⊢
    rw [hlife]
    by_cases heq : other = loop
    · subst heq
      rw [Function.update_self] at hother
      obtain rfl := Option.some.inj hother
      exact .inl (exists_of_running hrunning)
    · rw [Function.update_of_ne heq] at hother
      exact h.loops other l hother

theorem Identified.destroy (h : p.Identified) (thread : θ) (loop : Nat) :
    (p.destroy thread loop).Identified := by
  refine ⟨h.running, h.table, h.unborn, h.cached, h.gettids_eq, ?_⟩
  intro other l hother
  simp only [Process.destroy] at hother
  by_cases heq : other = loop
  · subst heq
    rw [Function.update_self] at hother
    cases hother
  · rw [Function.update_of_ne heq] at hother
    exact h.loops other l hother

theorem Identified.step {action : ProcessAction θ} (h : p.Identified)
    (hstep : system.step p action = some p') : p'.Identified := by
  obtain ⟨-, hmove⟩ := move_of_step hstep
  cases action with
  | spawn thread tid =>
      obtain ⟨⟨hunborn, hpos, hfree⟩, rfl⟩ := guarded_eq_some.mp hmove
      exact h.spawn hunborn hpos hfree
  | finish thread =>
      obtain ⟨hrunning, rfl⟩ := guarded_eq_some.mp hmove
      exact h.finish hrunning
  | isInLoopThread thread loop =>
      obtain ⟨hrunning, rfl⟩ := move_isInLoopThread hmove
      exact (h.cacheTid hrunning).1
  | construct thread loop =>
      obtain ⟨⟨hrunning, -⟩, rfl⟩ := guarded_eq_some.mp hmove
      exact h.construct hrunning loop
  | destroy thread loop =>
      obtain ⟨-, rfl⟩ := guarded_eq_some.mp hmove
      exact h.destroy thread loop

omit [DecidableEq θ] in
theorem identified_new : Identified (new : Process θ) where
  running _ _ hlife := by cases hlife
  table _ _ htable := by cases htable
  unborn _ _ := rfl
  cached _ _ hlife := by cases hlife
  gettids_eq _ := rfl
  loops _ _ hloop := by cases hloop

theorem identified_of_reachable (h : system.Reachable p) : p.Identified := by
  refine h.invariant ?_ fun _ _ _ hinv _ hstep => hinv.step hstep
  rintro p rfl
  exact identified_new

end Steps

/-! ### Who is in the thread of a loop -/

/-- **What `isInLoopThread` says.** A running thread passes the test of a loop exactly when it has
constructed the loop, or when the thread that did has ended and the kernel has given its id to this
one. And no thread asks the kernel for its id twice. -/
theorem isInLoopThread_iff {p : Process θ} (h : system.Reachable p) {loop tid : Nat}
    {l : OwnedLoop θ} {thread : θ} (hloop : p.loops loop = some l)
    (hlife : p.life thread = .running tid) :
    ((p.isInLoopThread thread l).1 = true ↔
      thread = l.creator ∨ p.life l.creator = .ended ∧ l.threadId = tid) ∧
      (p.isInLoopThread thread l).2.gettids thread = 1 := by
  have hinv := identified_of_reachable h
  obtain ⟨hpos, -⟩ := hinv.running thread tid hlife
  have hgettid := gettid_eq hlife
  have hrunning : p.Running thread := by
    rw [Running, hgettid]
    exact hpos
  obtain ⟨hcached, htid, -⟩ := hinv.cacheTid hrunning
  rw [isInLoopThread, tid_eq_cacheTid]
  dsimp only
  rw [htid, hgettid, beq_iff_eq]
  refine ⟨⟨?_, ?_⟩, ?_⟩
  · rintro rfl
    rcases hinv.loops loop l hloop with hcreator | hended
    · left
      have htable := (hinv.running l.creator _ hcreator).2
      rw [(hinv.running thread _ hlife).2] at htable
      exact Option.some.inj htable
    · exact .inr ⟨hended, rfl⟩
  · rintro (rfl | ⟨-, hsame⟩)
    · rcases hinv.loops loop l hloop with hcreator | hended
      · rw [hcreator] at hlife
        exact Life.running.inj hlife
      · rw [hended] at hlife
        cases hlife
    · exact hsame
  · rw [hcached.gettids_eq, htid, if_neg hrunning]

/-- A loop that was left behind, and another thread that has got the id of its thread. -/
theorem isInLoopThread_iff_reused :
    ∃ p : Process Bool,
      system.exec new [.spawn false 7, .construct false 1, .finish false, .spawn true 7] = some p ∧
      (p.loops 1 = some ⟨7, false⟩ ∧ p.life true = .running 7 ∧ p.life false = .ended) ∧
      (p.isInLoopThread true ⟨7, false⟩).1 = true := by
  apply System.exists_exec
  · exact ⟨_, rfl, rfl, rfl, rfl⟩
  · intro p hp ⟨hloop, hlife, hended⟩
    have htest := isInLoopThread_iff (System.reachable_of_exec rfl hp) hloop hlife
    exact htest.1.mpr (.inr ⟨hended, rfl⟩)

/-- The destructor of a loop is executed by the thread that has constructed it. -/
def AtHome (p : Process θ) : ProcessAction θ → Prop
  | .destroy thread loop => ∀ l ∈ p.loops loop, l.creator = thread
  | _ => True

instance (p : Process θ) : (action : ProcessAction θ) → Decidable (p.AtHome action)
  | .destroy thread loop => inferInstanceAs (Decidable (∀ l ∈ p.loops loop, l.creator = thread))
  | .spawn .. | .finish _ | .isInLoopThread .. | .construct .. => inferInstanceAs (Decidable True)

/-- The variable of a thread and the loops agree. -/
structure Owned (p : Process θ) : Prop where
  identified : p.Identified
  owner : ∀ loop l, p.loops loop = some l → p.loopInThisThread l.creator = some loop
  owned : ∀ thread loop, p.loopInThisThread thread = some loop →
    ∃ l, p.loops loop = some l ∧ l.creator = thread

section Owners

variable {p p' : Process θ} {thread : θ}

omit [DecidableEq θ] in
theorem Owned.of_same (h : p.Owned) (hidentified : p'.Identified) (hloops : p'.loops = p.loops)
    (hown : p'.loopInThisThread = p.loopInThisThread) : p'.Owned := by
  refine ⟨hidentified, ?_, ?_⟩
  · rw [hloops, hown]
    exact h.owner
  · rw [hloops, hown]
    exact h.owned

theorem Owned.construct (h : p.Owned) (hrunning : p.Running thread) {loop : Nat}
    (hfree : p.loops loop = none) : (p.construct thread loop).Owned := by
  have hidentified := h.identified.construct hrunning loop
  obtain ⟨-, -, -, hloops, hown⟩ := h.identified.cacheTid hrunning
  rw [construct_eq h.identified hrunning] at hidentified ⊢
  split
  · rename_i hfails
    rw [if_pos hfails] at hidentified
    exact h.of_same hidentified hloops hown
  · rename_i hnone
    rw [if_neg hnone] at hidentified
    refine ⟨hidentified, ?_, ?_⟩
    · intro other l hother
      dsimp only at hother ⊢
      by_cases heq : other = loop
      · subst heq
        rw [Function.update_self] at hother
        obtain rfl := Option.some.inj hother
        exact Function.update_self ..
      · rw [Function.update_of_ne heq] at hother
        have howner := h.owner other l hother
        have hne : l.creator ≠ thread := by
          rintro rfl
          rw [howner] at hnone
          exact hnone rfl
        rw [Function.update_of_ne hne]
        exact howner
    · intro other held hheld
      dsimp only at hheld ⊢
      by_cases heq : other = thread
      · subst heq
        rw [Function.update_self] at hheld
        obtain rfl := Option.some.inj hheld
        exact ⟨_, Function.update_self .., rfl⟩
      · rw [Function.update_of_ne heq] at hheld
        obtain ⟨l, hl, hcreator⟩ := h.owned other held hheld
        have hne : held ≠ loop := by
          rintro rfl
          rw [hfree] at hl
          cases hl
        exact ⟨l, by rw [Function.update_of_ne hne]; exact hl, hcreator⟩

theorem Owned.destroy (h : p.Owned) {loop : Nat} {l : OwnedLoop θ}
    (hloop : p.loops loop = some l) : (p.destroy l.creator loop).Owned := by
  refine ⟨h.identified.destroy l.creator loop, ?_, ?_⟩
  · intro other k hother
    simp only [Process.destroy] at hother ⊢
    by_cases heq : other = loop
    · subst heq
      rw [Function.update_self] at hother
      cases hother
    · rw [Function.update_of_ne heq] at hother
      have howner := h.owner other k hother
      have hne : k.creator ≠ l.creator := by
        intro hsame
        rw [hsame, h.owner loop l hloop] at howner
        exact heq (Option.some.inj howner).symm
      rw [Function.update_of_ne hne]
      exact howner
  · intro other held hheld
    simp only [Process.destroy] at hheld ⊢
    by_cases heq : other = l.creator
    · subst heq
      rw [Function.update_self] at hheld
      cases hheld
    · rw [Function.update_of_ne heq] at hheld
      obtain ⟨k, hk, hcreator⟩ := h.owned other held hheld
      have hne : held ≠ loop := by
        rintro rfl
        rw [hloop] at hk
        obtain rfl := Option.some.inj hk
        exact heq hcreator.symm
      exact ⟨k, by rw [Function.update_of_ne hne]; exact hk, hcreator⟩

theorem Owned.step {action : ProcessAction θ} (h : p.Owned) (hhome : p.AtHome action)
    (hstep : system.step p action = some p') : p'.Owned := by
  have hidentified := h.identified.step hstep
  obtain ⟨-, hmove⟩ := move_of_step hstep
  cases action with
  | spawn thread tid =>
      obtain ⟨-, rfl⟩ := guarded_eq_some.mp hmove
      exact h.of_same hidentified rfl rfl
  | finish thread =>
      obtain ⟨-, rfl⟩ := guarded_eq_some.mp hmove
      exact h.of_same hidentified rfl rfl
  | isInLoopThread thread loop =>
      obtain ⟨hrunning, rfl⟩ := move_isInLoopThread hmove
      obtain ⟨-, -, -, hloops, hown⟩ := h.identified.cacheTid hrunning
      exact h.of_same hidentified hloops hown
  | construct thread loop =>
      obtain ⟨⟨hrunning, hfree⟩, rfl⟩ := guarded_eq_some.mp hmove
      exact h.construct hrunning hfree
  | destroy thread loop =>
      obtain ⟨⟨-, hloop⟩, rfl⟩ := guarded_eq_some.mp hmove
      obtain ⟨l, hl⟩ := Option.ne_none_iff_exists'.mp hloop
      obtain rfl := hhome l hl
      exact h.destroy hl

theorem owned_of_reachable (h : system.ReachableUnder AtHome p) : p.Owned := by
  refine h.invariant ?_ fun _ _ _ hinv hhome hstep => hinv.step hhome hstep
  rintro p rfl
  exact ⟨identified_new, nofun, nofun⟩

end Owners

/-- **One loop per thread.** As long as loops are destroyed by the threads that construct them, no
thread has two of them, the variable of a thread is the address of its loop, and the constructor ends
the process exactly when its thread has a loop. -/
theorem one_loop_per_thread {p : Process θ} (h : system.ReachableUnder AtHome p) :
    (∀ loop other l k, p.loops loop = some l → p.loops other = some k → l.creator = k.creator →
      loop = other) ∧
      (∀ thread loop, p.loopInThisThread thread = some loop ↔
        ∃ l, p.loops loop = some l ∧ l.creator = thread) ∧
      ∀ thread loop p', system.step p (.construct thread loop) = some p' →
        (p'.exited = true ↔ ∃ other l, p.loops other = some l ∧ l.creator = thread) := by
  have howned := owned_of_reachable h
  have hvariable : ∀ thread loop, p.loopInThisThread thread = some loop ↔
      ∃ l, p.loops loop = some l ∧ l.creator = thread := by
    intro thread loop
    constructor
    · exact howned.owned thread loop
    · rintro ⟨l, hl, rfl⟩
      exact howned.owner loop l hl
  refine ⟨?_, hvariable, ?_⟩
  · intro loop other l k hl hk hsame
    have hloop := howned.owner loop l hl
    rw [hsame, howned.owner other k hk] at hloop
    exact (Option.some.inj hloop).symm
  · intro thread loop p' hstep
    obtain ⟨hgoing, hmove⟩ := move_of_step hstep
    obtain ⟨⟨hrunning, -⟩, rfl⟩ := guarded_eq_some.mp hmove
    have hhas : (∃ other l, p.loops other = some l ∧ l.creator = thread) ↔
        (p.loopInThisThread thread).isSome = true := by
      rw [Option.isSome_iff_exists]
      exact exists_congr fun other => (hvariable thread other).symm
    have hsame : (p.cacheTid thread).exited = p.exited := by
      unfold cacheTid
      split
      · rfl
      · rfl
    rw [hhas, construct_eq howned.identified hrunning]
    split
    · rename_i hsome
      simp [hsome]
    · rename_i hnone
      simp [hnone, hsame, hgoing]

/-- A thread destroys its loop and constructs another one at the same address. -/
theorem one_loop_per_thread_again :
    ∃ p : Process Bool,
      system.exec new [.spawn false 7, .construct false 1, .destroy false 1, .construct false 1]
        = some p ∧
      (p.loops 1 = some ⟨7, false⟩ ∧ p.exited = false) ∧ p.loopInThisThread false = some 1 := by
  apply System.exists_execUnder fun p action => p.AtHome action
  · exact ⟨_, rfl, rfl, rfl⟩
  · intro p hp ⟨hloop, _⟩
    have hown := one_loop_per_thread (System.reachableUnder_of_execUnder rfl hp)
    exact (hown.2.1 false 1).mpr ⟨_, hloop, rfl⟩

end Process

end MuduoCore
