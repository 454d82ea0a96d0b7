import MfaConsole.Notices
import Mathlib.Data.List.Induction

/-! What the queue of notices holds, told from what was asked of it and the numbers that it answered with. A notice is
    there until its number is dismissed. As numbers are counted up, whoever dismisses one late, twice or too early takes
    nothing else away. -/

namespace MfaConsole
namespace Notices

/-! ### Histories -/

def Deed.isAdd : Deed → Bool
  | .add _ _ => true
  | .dismiss _ => false

def performAll (n : Notices) : List Deed → Notices
  | [] => n
  | d :: ds => (n.perform d).1.performAll ds

/-- The deeds, each with the answer to it. -/
def answered (n : Notices) : List Deed → List (Deed × Option Nat)
  | [] => []
  | d :: ds => (d, (n.perform d).2) :: (n.perform d).1.answered ds

/-- The queue after deeds from the beginning. -/
def after (ds : List Deed) : Notices := empty.performAll ds

/-- The deeds from the beginning, with the answers. -/
def log (ds : List Deed) : List (Deed × Option Nat) := empty.answered ds

/-- The numbers that were handed out. -/
def numbers (hs : List (Deed × Option Nat)) : List Nat := hs.filterMap (·.2)

/-- The notice that was added, under the number of the answer. -/
def added? : Deed × Option Nat → Option Notice
  | (.add kind message, some id) => some { id, kind, message }
  | _ => none

/-- The notices that were added and whose number was not dismissed after that, in the order in which they were added. -/
def standing : List (Deed × Option Nat) → List Notice
  | [] => []
  | h :: later => ((added? h).filter fun i => .dismiss i.id ∉ later.map (·.1)).toList ++ standing later

/-- A number that was not handed out, or was handed out and then dismissed. -/
def Idle (ds : List Deed) (id : Nat) : Prop :=
  id ∉ numbers (log ds) ∨ ∃ earlier later, ds = earlier ++ .dismiss id :: later ∧ id ∈ numbers (log earlier)

/-- The numbers handed out are counted up from zero, so that none is handed out twice, and the queue holds what stands
    of all that was added. To dismiss an idle number changes nothing, and nothing that follows is different for it: what
    is added later under that number is shown all the same. -/
structure Accounts (ds : List Deed) : Prop where
  numbers : numbers (log ds) = List.range (ds.countP Deed.isAdd)
  increasing : (Notices.numbers (log ds)).Pairwise (· < ·)
  items : (after ds).items = standing (log ds)
  idle : ∀ id, Idle ds id → (after ds).perform (.dismiss id) = (after ds, none)
  harmless : ∀ id more, Idle ds id → after (ds ++ .dismiss id :: more) = after (ds ++ more)
  premature : ∀ id more kind message, .dismiss id ∉ more →
    (.add kind message, some id) ∈ (after (ds ++ [.dismiss id])).answered more →
    { id, kind, message } ∈ (after (ds ++ .dismiss id :: more)).items

/-! ### What stands -/

theorem standing_append (hs more : List (Deed × Option Nat)) : standing (hs ++ more) =
    (standing hs).filter (fun i => .dismiss i.id ∉ more.map (·.1)) ++ standing more := by
  induction hs with
  | nil => rfl
  | cons h hs ih =>
    have first : ((added? h).filter fun i => .dismiss i.id ∉ (hs ++ more).map (·.1)).toList =
        ((added? h).filter fun i => .dismiss i.id ∉ hs.map (·.1)).toList.filter
          fun i => .dismiss i.id ∉ more.map (·.1) := by
      cases added? h with
      | none => rfl
      | some i =>
        by_cases now : Deed.dismiss i.id ∈ hs.map (·.1) <;> by_cases later : Deed.dismiss i.id ∈ more.map (·.1) <;>
          simp [Option.filter, now, later]
    rw [List.cons_append, standing, standing, first, ih, List.filter_append, List.append_assoc]

theorem mem_standing_cons {h : Deed × Option Nat} {later : List (Deed × Option Nat)} {i : Notice}
    (added : added? h = some i) (stays : .dismiss i.id ∉ later.map (·.1)) : i ∈ standing (h :: later) := by
  rw [standing, added, Option.filter_some_pos (by simpa using stays)]
  exact List.mem_append_left _ (List.mem_singleton_self i)

theorem snd_of_added {h : Deed × Option Nat} {i : Notice} (added : added? h = some i) : h.2 = some i.id := by
  unfold added? at added
  split at added
  · cases added
    rfl
  · cases added

theorem id_mem_numbers {hs : List (Deed × Option Nat)} {i : Notice} (hi : i ∈ standing hs) : i.id ∈ numbers hs := by
  induction hs with
  | nil => cases hi
  | cons h hs ih =>
    rcases List.mem_append.mp hi with new | old
    · have added := (Option.mem_filter_iff.mp (Option.mem_toList.mp new)).1
      exact List.mem_filterMap.mpr ⟨h, List.mem_cons_self, snd_of_added added⟩
    · obtain ⟨g, hg, number⟩ := List.mem_filterMap.mp (ih old)
      exact List.mem_filterMap.mpr ⟨g, List.mem_cons_of_mem h hg, number⟩

/-! ### One deed -/

theorem nextId_perform (n : Notices) (d : Deed) : (n.perform d).1.nextId = n.nextId + [d].countP Deed.isAdd := by
  cases d <;> rfl

theorem numbers_perform (n : Notices) (d : Deed) :
    numbers [(d, (n.perform d).2)] = List.range' n.nextId ([d].countP Deed.isAdd) := by
  cases d <;> rfl

/-- A deed takes away what it dismisses and puts what it adds at the end. -/
theorem items_perform (n : Notices) (d : Deed) : (n.perform d).1.items =
    n.items.filter (fun i => .dismiss i.id ∉ [d]) ++ standing [(d, (n.perform d).2)] := by
  cases d with
  | add kind message =>
    have all : n.items.filter (fun i => .dismiss i.id ∉ [Deed.add kind message]) = n.items := by simp
    rw [all]
    rfl
  | dismiss id =>
    show n.items.filter (fun i => i.id ≠ id) = _ ++ []
    rw [List.append_nil]
    exact List.filter_congr fun i _ => by simp

theorem perform_dismiss_of_absent {n : Notices} {id : Nat} (absent : ∀ i ∈ n.items, i.id ≠ id) :
    n.perform (.dismiss id) = (n, none) := by
  have same : n.items.filter (fun i => i.id ≠ id) = n.items :=
    List.filter_eq_self.mpr fun i hi => decide_eq_true (absent i hi)
  rw [perform, dismiss, same]

/-! ### All deeds -/

theorem performAll_append (n : Notices) (ds more : List Deed) :
    n.performAll (ds ++ more) = (n.performAll ds).performAll more := by
  induction ds generalizing n with
  | nil => rfl
  | cons d ds ih => exact ih _

theorem answered_append (n : Notices) (ds more : List Deed) :
    n.answered (ds ++ more) = n.answered ds ++ (n.performAll ds).answered more := by
  induction ds generalizing n with
  | nil => rfl
  | cons d ds ih => exact congrArg ((d, (n.perform d).2) :: ·) (ih _)

theorem map_fst_answered (n : Notices) (ds : List Deed) : (n.answered ds).map (·.1) = ds := by
  induction ds generalizing n with
  | nil => rfl
  | cons d ds ih => exact congrArg (d :: ·) (ih _)

theorem after_append (ds more : List Deed) : after (ds ++ more) = (after ds).performAll more :=
  performAll_append empty ds more

theorem log_append (ds more : List Deed) : log (ds ++ more) = log ds ++ (after ds).answered more :=
  answered_append empty ds more

theorem numbers_append (hs more : List (Deed × Option Nat)) : numbers (hs ++ more) = numbers hs ++ numbers more :=
  List.filterMap_append

theorem nextId_after (ds : List Deed) : (after ds).nextId = ds.countP Deed.isAdd := by
  induction ds using List.reverseRecOn with
  | nil => rfl
  | append_singleton ds d ih =>
    rw [after_append, List.countP_append, ← ih]
    exact nextId_perform (after ds) d

theorem numbers_log (ds : List Deed) : numbers (log ds) = List.range (ds.countP Deed.isAdd) := by
  induction ds using List.reverseRecOn with
  | nil => rfl
  | append_singleton ds d ih =>
    have new := numbers_perform (after ds) d
    rw [nextId_after] at new
    rw [log_append, numbers_append, ih, List.countP_append, List.range_eq_range', List.range_eq_range',
      ← List.range'_append_1, Nat.zero_add, ← new]
    rfl

theorem increasing_numbers_log (ds : List Deed) : (numbers (log ds)).Pairwise (· < ·) := by
  rw [numbers_log]
  exact List.pairwise_lt_range

theorem items_after (ds : List Deed) : (after ds).items = standing (log ds) := by
  induction ds using List.reverseRecOn with
  | nil => rfl
  | append_singleton ds d ih =>
    rw [after_append, log_append, standing_append, map_fst_answered, ← ih]
    exact items_perform (after ds) d

theorem absent_of_idle {ds : List Deed} {id : Nat} (idle : Idle ds id) : ∀ i ∈ (after ds).items, i.id ≠ id := by
  rintro i hi rfl
  rw [items_after] at hi
  rcases idle with never | ⟨earlier, later, rfl, handed⟩
  · exact never (id_mem_numbers hi)
  · -- It was handed out before it was dismissed, and then not again: it stands neither from before nor from after.
    have increasing := increasing_numbers_log (earlier ++ .dismiss i.id :: later)
    rw [log_append, standing_append, map_fst_answered] at hi
    rw [log_append, numbers_append] at increasing
    rcases List.mem_append.mp hi with before | since
    · simpa using (List.mem_filter.mp before).2
    · exact Nat.lt_irrefl _ ((List.pairwise_append.mp increasing).2.2 _ handed _ (id_mem_numbers since))

theorem perform_dismiss_of_idle {ds : List Deed} {id : Nat} (idle : Idle ds id) :
    (after ds).perform (.dismiss id) = (after ds, none) := perform_dismiss_of_absent (absent_of_idle idle)

theorem after_dismiss_of_idle {ds : List Deed} {id : Nat} (idle : Idle ds id) (more : List Deed) :
    after (ds ++ .dismiss id :: more) = after (ds ++ more) := by
  rw [after_append, after_append, performAll, perform_dismiss_of_idle idle]

theorem mem_items_of_added (ds : List Deed) {more : List Deed} {id : Nat} {kind : NoticeKind} {message : String}
    (stays : .dismiss id ∉ more) (added : (.add kind message, some id) ∈ (after ds).answered more) :
    { id, kind, message } ∈ (after (ds ++ more)).items := by
  obtain ⟨before, later, split⟩ := List.append_of_mem added
  have among : ∀ d ∈ later.map (·.1), d ∈ more := by
    rw [← map_fst_answered (after ds) more, split]
    intro d hd
    simp only [List.map_append, List.map_cons]
    exact List.mem_append_right _ (List.mem_cons_of_mem _ hd)
  rw [items_after, log_append, split, ← List.append_assoc, standing_append]
  exact List.mem_append_right _ (mem_standing_cons rfl fun hd => stays (among _ hd))

/-- Whatever is added and dismissed, in whatever order and with whatever numbers, the queue hands out a new number each
    time, holds each notice that was added until its own number is dismissed, in the order of adding, and is left as it
    is by the dismissal of a number that is unknown, already dismissed or not yet handed out. -/
theorem accounts (ds : List Deed) : Accounts ds where
  numbers := numbers_log ds
  increasing := increasing_numbers_log ds
  items := items_after ds
  idle _ := perform_dismiss_of_idle
  harmless _ more idle := after_dismiss_of_idle idle more
  premature id more kind message stays added := by
    have same := mem_items_of_added (ds ++ [.dismiss id]) stays added
    rwa [List.append_assoc] at same

/-- The first notice is dismissed twice and the third before it is there; the second and the third are shown. -/
example : log [.add .info "a", .dismiss 2, .add .error "b", .dismiss 0, .dismiss 0, .add .info "c"] =
      [(.add .info "a", some 0), (.dismiss 2, none), (.add .error "b", some 1), (.dismiss 0, none), (.dismiss 0, none),
        (.add .info "c", some 2)] ∧
    (after [.add .info "a", .dismiss 2, .add .error "b", .dismiss 0, .dismiss 0, .add .info "c"]).items =
      [⟨1, .error, "b"⟩, ⟨2, .info, "c"⟩] := by decide

end Notices
end MfaConsole
