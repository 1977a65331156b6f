import HostapdGrpc.Go.Path
import Mathlib.Data.List.DropRight
import Mathlib.Logic.Function.Iterate

/-!
# The elements of a path

What cleaning makes of a path, seen from the directory where it starts: steps up, then steps down.
-/

namespace HostapdGrpc.Go.Path

/-- The name of a file or directory -/
structure Plain (e : GoString) : Prop where
  ne_nil : e ≠ []
  ne_dot : e ≠ dot
  ne_dotdot : e ≠ dotdot
  whole : slash ∉ e

/-! ### One element -/

theorem push_skip {rooted : Bool} {done : List GoString} {e : GoString} (skip : e = [] ∨ e = dot) :
    push rooted done e = done := if_pos skip

theorem push_plain {rooted : Bool} {done : List GoString} {e : GoString} (plain : Plain e) :
    push rooted done e = e :: done := by
  unfold push
  rw [if_neg (not_or.mpr ⟨plain.ne_nil, plain.ne_dot⟩), if_neg plain.ne_dotdot]

theorem push_up {rooted : Bool} {before : List GoString} {last : GoString} (plain : Plain last) :
    push rooted (last :: before) dotdot = before := by
  unfold push
  rw [if_neg (by decide), if_pos rfl]
  exact if_neg plain.ne_dotdot

theorem push_up_out (k : Nat) :
    push false (List.replicate k dotdot) dotdot = List.replicate (k + 1) dotdot := by
  cases k with
  | zero => rfl
  | succ k => rfl

/-- What an element can be -/
theorem element_cases {e : GoString} (whole : slash ∉ e) :
    (e = [] ∨ e = dot) ∨ e = dotdot ∨ Plain e := by
  by_cases skip : e = [] ∨ e = dot
  · exact .inl skip
  · obtain ⟨nonempty, other⟩ := not_or.mp skip
    by_cases up : e = dotdot
    · exact .inr (.inl up)
    · exact .inr (.inr ⟨nonempty, other, up, whole⟩)

/-! ### A walk -/

/-- `up` steps towards the root -/
def climb (rooted : Bool) (up : Nat) (done : List GoString) : List GoString :=
  (fun s => push rooted s dotdot)^[up] done

/-- Wherever it starts, a walk goes up some steps and then down some. -/
private theorem exists_walk (es : List GoString) (whole : ∀ e ∈ es, slash ∉ e) :
    ∃ (up : Nat) (down : List GoString), (∀ e ∈ down, Plain e) ∧
      ∀ rooted done, es.foldl (push rooted) done = down.reverse ++ climb rooted up done := by
  induction es using List.reverseRecOn with
  | nil => exact ⟨0, [], by simp, fun _ _ => rfl⟩
  | append_singleton es e ih =>
    obtain ⟨up, down, plain, walk⟩ := ih fun e member => whole e (List.mem_append_left _ member)
    have step : ∀ rooted done, (es ++ [e]).foldl (push rooted) done =
        push rooted (down.reverse ++ climb rooted up done) e := fun rooted done => by
      rw [List.foldl_append, walk, List.foldl_cons, List.foldl_nil]
    rcases element_cases (whole e (by simp)) with skip | rfl | name
    · exact ⟨up, down, plain, fun rooted done => by rw [step, push_skip skip]⟩
    · rcases down.eq_nil_or_concat with rfl | ⟨before, last, rfl⟩
      · refine ⟨up + 1, [], by simp, fun rooted done => ?_⟩
        rw [step, climb, climb, Function.iterate_succ_apply']
        rfl
      -- The step up takes the last step down back.
      · refine ⟨up, before, fun e member => plain e (by simp [member]), fun rooted done => ?_⟩
        rw [step]
        simpa using push_up (plain last (by simp))
    · refine ⟨up, down ++ [e], ?_, fun rooted done => ?_⟩
      · rintro x member
        rcases List.mem_append.mp member with old | new
        · exact plain x old
        · exact List.mem_singleton.mp new ▸ name
      · rw [step, push_plain name]
        simp

/-- The elements of a path, cleaned without regard to where it starts -/
def relative (p : GoString) : List GoString := ((p.splitOn slash).foldl (push false) []).reverse

/-- How far the path goes up at first -/
def ups (p : GoString) : Nat := ((relative p).takeWhile (· = dotdot)).length

/-- What comes after the steps up -/
def downs (p : GoString) : List GoString := (relative p).dropWhile (· = dotdot)

private theorem whole_of_mem_splitOn {p e : GoString} (member : e ∈ p.splitOn slash) :
    slash ∉ e := by
  induction p generalizing e with
  | nil =>
    rw [List.splitOn_nil, List.mem_singleton] at member
    simp [member]
  | cons b p ih =>
    rw [List.splitOn_cons_eq_if_modifyHead] at member
    split at member
    · rcases List.mem_cons.mp member with rfl | later
      · simp
      · exact ih later
    next other =>
      -- The byte is put in front of the first piece.
      cases pieces : p.splitOn slash with
      | nil => simp [pieces] at member
      | cons first others =>
        rw [pieces, List.modifyHead_cons] at member
        rcases List.mem_cons.mp member with rfl | later
        · rw [List.mem_cons, not_or]
          exact ⟨fun same => other (by simp [same]), ih (pieces ▸ List.mem_cons_self)⟩
        · exact ih (pieces ▸ List.mem_cons_of_mem _ later)

theorem climb_out (up : Nat) : climb false up [] = List.replicate up dotdot := by
  induction up with
  | zero => rfl
  | succ up ih =>
    rw [climb, Function.iterate_succ_apply', ← climb, ih, push_up_out]

/-- The form of a cleaned path, and the walk along it from any directory -/
theorem walk (p : GoString) : (∀ e ∈ downs p, Plain e) ∧ ∀ rooted done,
    (p.splitOn slash).foldl (push rooted) done =
      (downs p).reverse ++ climb rooted (ups p) done := by
  obtain ⟨up, down, plain, walked⟩ := exists_walk (p.splitOn slash) fun e => whole_of_mem_splitOn
  have form : relative p = List.replicate up dotdot ++ down := by
    rw [relative, walked, climb_out]
    simp
  have no_dots : down.takeWhile (· = dotdot) = [] ∧ down.dropWhile (· = dotdot) = down := by
    cases down with
    | nil => exact ⟨rfl, rfl⟩
    | cons e down => simp [(plain e (by simp)).ne_dotdot]
  have up_eq : ups p = up := by
    rw [ups, form, List.takeWhile_append_of_pos (by simp), no_dots.1]
    simp
  have down_eq : downs p = down := by
    rw [downs, form, List.dropWhile_append_of_pos (by simp), no_dots.2]
  rw [up_eq, down_eq]
  exact ⟨plain, walked⟩

/-! ### Cleaned paths -/

/-- Steps up from a directory, which is itself `out` steps up and `names` down -/
theorem climb_stack {rooted : Bool} {out : Nat} (root : rooted = true → out = 0) (up : Nat)
    {names : List GoString} (plain : ∀ e ∈ names, Plain e) :
    climb rooted up (names.reverse ++ List.replicate out dotdot) =
      (names.rdrop up).reverse ++
        List.replicate (if rooted then 0 else out + (up - names.length)) dotdot := by
  induction up generalizing names out with
  | zero => cases rooted <;> simp_all [climb]
  | succ up ih =>
    rw [climb, Function.iterate_succ_apply, ← climb]
    rcases names.eq_nil_or_concat with rfl | ⟨before, last, rfl⟩
    · cases rooted with
      | true =>
        have top := @ih 0 (fun _ => rfl) [] (by simp)
        simpa [root rfl, push] using top
      | false =>
        have further := @ih (out + 1) (by simp) [] (by simp)
        simp only [List.reverse_nil, List.nil_append] at further ⊢
        rw [push_up_out, further]
        simp [Nat.add_assoc, Nat.add_comm 1]
    · have shorter := @ih out root before fun e member => plain e (by simp [member])
      rw [List.concat_eq_append, List.reverse_append, List.reverse_singleton, List.append_assoc,
        List.singleton_append, push_up (plain last (by simp)), shorter, List.rdrop_concat_succ]
      simp

/-- How far outside the cleaned path starts -/
def outs (p : GoString) : Nat := if isRooted p then 0 else ups p

theorem outs_of_rooted {p : GoString} (rooted : isRooted p = true) : outs p = 0 := if_pos rooted

theorem elements_eq (p : GoString) : elements p = List.replicate (outs p) dotdot ++ downs p := by
  have walked := (walk p).2 (isRooted p) []
  have climbed := @climb_stack (isRooted p) 0 (fun _ => rfl) (ups p) [] (by simp)
  simp only [List.reverse_nil, List.nil_append, List.replicate_zero] at climbed
  rw [elements, walked, climbed]
  simp [outs]

private theorem element_of_mem {p e : GoString} (member : e ∈ elements p) :
    e ≠ [] ∧ slash ∉ e := by
  rw [elements_eq, List.mem_append] at member
  rcases member with up | down
  · rw [List.eq_of_mem_replicate up]
    decide
  · have plain := (walk p).1 e down
    exact ⟨plain.ne_nil, plain.whole⟩

/-- The elements of a cleaned path stay as they are. -/
private theorem foldl_elements (p : GoString) :
    (elements p).foldl (push (isRooted p)) [] = (elements p).reverse := by
  have up : ∀ n, (isRooted p = true → n = 0) →
      (List.replicate n dotdot).foldl (push (isRooted p)) [] = List.replicate n dotdot := by
    intro n root
    induction n with
    | zero => rfl
    | succ n ih =>
      have unrooted : isRooted p = false := by simpa using root
      rw [unrooted] at ih ⊢
      rw [List.replicate_succ', List.foldl_append, ih (by simp), List.foldl_cons, List.foldl_nil,
        push_up_out, List.replicate_succ']
  have down : ∀ (names done : List GoString), (∀ e ∈ names, Plain e) →
      names.foldl (push (isRooted p)) done = names.reverse ++ done := by
    intro names done plain
    induction names generalizing done with
    | nil => rfl
    | cons e names ih =>
      obtain ⟨here, later⟩ := List.forall_mem_cons.mp plain
      rw [List.foldl_cons, push_plain here, ih _ later]
      simp
  rw [elements_eq, List.foldl_append, up _ outs_of_rooted, down _ _ (walk p).1]
  simp

/-- The path cleaned again -/
theorem elements_clean (p : GoString) :
    isRooted (clean p) = isRooted p ∧ elements (clean p) = elements p := by
  have kept := foldl_elements p
  cases es : elements p with
  | nil =>
    cases rooted : isRooted p <;> simp [clean, es, rooted] <;> decide
  | cons e rest =>
    obtain ⟨nonempty, whole⟩ := element_of_mem (p := p) (e := e) (by simp [es])
    have body : ∃ b s, [slash].intercalate (e :: rest) = b :: s ∧ b ≠ slash := by
      obtain ⟨b, s, rfl⟩ := List.exists_cons_of_ne_nil nonempty
      have other : b ≠ slash := fun same => whole (same ▸ List.mem_cons_self)
      cases rest with
      | nil => exact ⟨b, s, by simp [List.intercalate], other⟩
      | cons e' rest =>
        exact ⟨b, s ++ slash :: [slash].intercalate (e' :: rest),
          by simp [List.intercalate_cons_cons], other⟩
    have split : ([slash].intercalate (e :: rest)).splitOn slash = e :: rest := by
      refine List.splitOn_intercalate _ (fun x member => ?_) (by simp)
      exact (element_of_mem (p := p) (es ▸ member)).2
    obtain ⟨b, s, shape, other⟩ := body
    rw [es] at kept
    cases rooted : isRooted p with
    | true =>
      have cleaned : clean p = slash :: [slash].intercalate (e :: rest) := by
        simp [clean, es, rooted]
      have pieces : (clean p).splitOn slash = [] :: e :: rest := by
        have cut := List.splitOn_append_cons_self (a := slash) [] ([slash].intercalate (e :: rest))
        rw [split] at cut
        rw [cleaned]
        exact cut
      have root : isRooted (clean p) = true := by
        rw [cleaned]
        rfl
      rw [rooted] at kept
      rw [elements, root, pieces, List.foldl_cons, push_skip (.inl rfl), kept, List.reverse_reverse]
      exact ⟨rfl, rfl⟩
    | false =>
      have cleaned : clean p = [slash].intercalate (e :: rest) := by
        simp [clean, es, rooted, shape]
      have root : isRooted (clean p) = false := by
        rw [cleaned, shape]
        simpa [isRooted] using other
      rw [rooted] at kept
      rw [elements, root, cleaned, split, kept, List.reverse_reverse]
      exact ⟨rfl, rfl⟩

/-! ### Joined paths -/

theorem isRooted_append {dir : GoString} (nonempty : dir ≠ []) (s : GoString) :
    isRooted (dir ++ s) = isRooted dir := by
  obtain ⟨b, rest, rfl⟩ := List.exists_cons_of_ne_nil nonempty
  rfl

/-- Where the path from `dir` leads -/
theorem elements_join {dir : GoString} (nonempty : dir ≠ []) (name : GoString) :
    isRooted (join dir name) = isRooted dir ∧ elements (join dir name) =
      List.replicate (if isRooted dir then 0 else outs dir + (ups name - (downs dir).length))
        dotdot ++ ((downs dir).rdrop (ups name) ++ downs name) := by
  have rooted := isRooted_append nonempty (slash :: name)
  obtain ⟨cleanRooted, cleanElements⟩ := elements_clean (dir ++ slash :: name)
  have start : (dir.splitOn slash).foldl (push (isRooted dir)) [] =
      (downs dir).reverse ++ List.replicate (outs dir) dotdot := by
    rw [← List.reverse_reverse (List.foldl _ _ _), ← elements, elements_eq]
    simp
  rw [join, if_pos nonempty, cleanRooted, cleanElements, rooted]
  refine ⟨rfl, ?_⟩
  rw [elements, rooted, List.splitOn_append_cons_self, List.foldl_append, start,
    (walk name).2, climb_stack outs_of_rooted _ (walk dir).1]
  simp

/-! ### Paths beneath a directory -/

/-- `p` comes to `inside` after the directory `dir`. -/
structure Beneath (dir p : GoString) (inside : List GoString) : Prop where
  rooted : isRooted p = isRooted dir
  strict : inside ≠ []
  down : dotdot ∉ inside
  elements : elements p = elements dir ++ inside

/-- The name goes from `dir` to `inside`: it comes back along the names it leaves with its first
steps up. -/
structure LeadsTo (dir name : GoString) (inside : List GoString) : Prop where
  relative : dir = [] → isRooted name = false
  room : isRooted dir = false → ups name ≤ (downs dir).length
  back : downs name = (downs dir).rtake (ups name) ++ inside
  strict : inside ≠ []

private theorem replicate_append_inj {m n : Nat} {x : GoString} {l l' : List GoString}
    (absent : x ∉ l) (absent' : x ∉ l') :
    List.replicate m x ++ l = List.replicate n x ++ l' ↔ m = n ∧ l = l' := by
  constructor
  · intro same
    have counts := congrArg (List.count x) same
    simp only [List.count_append, List.count_replicate_self, List.count_eq_zero_of_not_mem absent,
      List.count_eq_zero_of_not_mem absent', Nat.add_zero] at counts
    subst counts
    exact ⟨rfl, List.append_cancel_left same⟩
  · rintro ⟨rfl, rfl⟩
    rfl

theorem dotdot_not_mem {names : List GoString} (plain : ∀ e ∈ names, Plain e) : dotdot ∉ names :=
  fun member => (plain dotdot member).ne_dotdot rfl

/-- A joined path is beneath the directory just if its name leads into it. -/
theorem beneath_join_iff (dir name : GoString) (inside : List GoString) :
    Beneath dir (join dir name) inside ↔ LeadsTo dir name inside := by
  have plain := (walk name).1
  by_cases empty : dir = []
  · subst empty
    by_cases nothing : name = []
    · subst nothing
      constructor
      · rintro ⟨_, strict, _, here⟩
        exact absurd here.symm strict
      · rintro ⟨_, _, back, strict⟩
        exact absurd back.symm strict
    · obtain ⟨rooted, same⟩ := elements_clean name
      have joined : join [] name = clean name := by simp [join, nothing]
      have nowhere : (downs []).rtake (ups name) = [] := List.rtake_nil _
      rw [joined]
      constructor
      · rintro ⟨start, strict, down, here⟩
        have relative : isRooted name = false := rooted.symm.trans start
        have outside : outs name = ups name := by simp [outs, relative]
        -- There is no way up from the directory without a name.
        have form : List.replicate (ups name) dotdot ++ downs name =
            List.replicate 0 dotdot ++ inside := by
          rw [← outside, ← elements_eq, ← same, here]
          rfl
        obtain ⟨up, back⟩ := (replicate_append_inj (dotdot_not_mem plain) down).mp form
        exact ⟨fun _ => relative, fun _ => up.le, by rw [nowhere, back]; rfl, strict⟩
      · rintro ⟨relative, room, back, strict⟩
        have here : downs name = inside := by rw [back, nowhere]; rfl
        have top : ups name = 0 := Nat.le_zero.mp (room rfl)
        refine ⟨rooted.trans (relative rfl), strict, here ▸ dotdot_not_mem plain, ?_⟩
        rw [same, elements_eq, outs, relative rfl, top, here]
        rfl
  · obtain ⟨rooted, joined⟩ := elements_join empty name
    have kept : dotdot ∉ (downs dir).rdrop (ups name) ++ downs name := by
      rw [List.mem_append, not_or]
      refine ⟨fun member => dotdot_not_mem (walk dir).1 ?_, dotdot_not_mem plain⟩
      exact (List.take_sublist _ _).subset member
    -- The names of the directory are those that the steps up leave, and those they keep.
    have left : (downs dir).rdrop (ups name) ++ (downs dir).rtake (ups name) = downs dir :=
      List.take_append_drop _ _
    constructor
    · rintro ⟨_, strict, down, here⟩
      rw [joined, elements_eq, List.append_assoc] at here
      have below : dotdot ∉ downs dir ++ inside := by
        rw [List.mem_append, not_or]
        exact ⟨dotdot_not_mem (walk dir).1, down⟩
      obtain ⟨out, names⟩ := (replicate_append_inj kept below).mp here
      refine ⟨fun nil => absurd nil empty, fun unrooted => ?_, ?_, strict⟩
      · rw [unrooted] at out
        simp only [Bool.false_eq_true, if_false] at out
        omega
      · refine List.append_cancel_left (names.trans ?_)
        rw [← List.append_assoc, left]
    · rintro ⟨_, room, back, strict⟩
      have down : dotdot ∉ inside := fun member =>
        dotdot_not_mem plain (back ▸ List.mem_append_right _ member)
      refine ⟨rooted, strict, down, ?_⟩
      have out : (if isRooted dir then 0 else outs dir + (ups name - (downs dir).length)) =
          outs dir := by
        cases unrooted : isRooted dir with
        | true => exact (outs_of_rooted unrooted).symm
        | false => simp [Nat.sub_eq_zero_of_le (room unrooted)]
      rw [joined, out, elements_eq dir, back, ← List.append_assoc (List.rdrop _ _), left,
        List.append_assoc]

theorem clean_eq {p q : GoString} (rooted : isRooted p = isRooted q)
    (same : elements p = elements q) : clean p = clean q := by
  unfold clean
  rw [rooted, same]

/-- A path into a directory is clean. -/
theorem clean_join {dir name : GoString} {inside : List GoString}
    (leads : LeadsTo dir name inside) : clean (join dir name) = join dir name := by
  have twice : ∀ p, clean (clean p) = clean p := fun p =>
    clean_eq (elements_clean p).1 (elements_clean p).2
  unfold join
  split_ifs with empty nothing
  · exact twice _
  · exact twice _
  · simp only [ne_eq, not_not] at empty nothing
    rw [empty, nothing] at leads
    exact absurd leads.back.symm leads.strict

/-- Beneath a directory, what comes after it identifies the path. -/
theorem join_eq_iff {dir name name' : GoString} {inside inside' : List GoString}
    (leads : LeadsTo dir name inside) (leads' : LeadsTo dir name' inside') :
    join dir name = join dir name' ↔ inside = inside' := by
  have beneath := (beneath_join_iff dir name inside).mpr leads
  have beneath' := (beneath_join_iff dir name' inside').mpr leads'
  constructor
  · intro same
    have elements := beneath.elements
    rw [same, beneath'.elements] at elements
    exact (List.append_cancel_left elements).symm
  · rintro rfl
    rw [← clean_join leads, ← clean_join leads']
    exact clean_eq (beneath.rooted.trans beneath'.rooted.symm)
      (beneath.elements.trans beneath'.elements.symm)

/-- The name of a file leads to the file. -/
theorem leadsTo_plain (dir : GoString) {name : GoString} (plain : Plain name) :
    LeadsTo dir name [name] := by
  have form : relative name = [name] := by
    rw [relative, List.splitOn_eq_singleton plain.whole, List.foldl_cons, List.foldl_nil,
      push_plain plain]
    rfl
  have up : ups name = 0 := by simp [ups, form, plain.ne_dotdot]
  have unrooted : isRooted name = false := by
    obtain ⟨b, rest, rfl⟩ := List.exists_cons_of_ne_nil plain.ne_nil
    have other : b ≠ slash := fun same => plain.whole (same ▸ List.mem_cons_self)
    simpa [isRooted] using other
  refine ⟨fun _ => unrooted, fun _ => by simp [up], ?_, by simp⟩
  simp [downs, form, plain.ne_dotdot, up]

end HostapdGrpc.Go.Path
