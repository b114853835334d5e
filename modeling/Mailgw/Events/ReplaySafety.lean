import Mailgw.Events.FailedEvents
import Mailgw.Lists.Replace

namespace Mailgw.Events

open Calls Files Lists

namespace FailedEvents

structure Sound (s : FailedEvents) (pid : Nat) (h : Holding) : Prop where
  known : h.name ∈ s.spilled.map Prod.fst
  pending : isPending h.name = true
  path : h.path = claimName pid h.time h.name
  time : h.time ≤ s.now
  content : ∀ record, h.content = some record → (h.name, record) ∈ s.spilled
  acked : h.acked = true → ∀ record, (h.name, record) ∈ s.spilled → (h.name, record.body) ∈ s.acked

/-- Every spilled record is on disk until it is accepted or its time under rejected/ is over. -/
structure Inv (s : FailedEvents) : Prop where
  follows : ∀ p ∈ s.procs, Follows replayStages (fun _ _ => True) p.prog p.progress
  reads : ∀ p ∈ s.procs, p.progress.read ≤ s.now
  now : s.now < 2 ^ 63
  names : ∀ name record, (name, record) ∈ s.spilled → isPending name = true
  nodup : (s.spilled.map Prod.fst).Nodup
  shelf : Shelf s.dir s.spilled
  kept : ∀ name record, (name, record) ∈ s.spilled →
    (name, record.body) ∈ s.acked ∨ name ∈ s.swept ∨ Located s.dir name record
  claims : ∀ p ∈ s.procs, ∀ h, p.progress.claim = some h → s.Sound p.progress.pid h

variable {s : FailedEvents}

theorem Inv.unique (inv : Inv s) {name : Chars} {record record' : SpillRecord} (one : (name, record) ∈ s.spilled)
    (other : (name, record') ∈ s.spilled) : record = record' := by
  have same := List.inj_on_of_nodup_map inv.nodup one other rfl
  exact (Prod.mk.inj same).2

theorem Sound.origin {pid : Nat} {h : Holding} (sound : s.Sound pid h) (now : s.now < 2 ^ 63) :
    origin .spill h.path = some h.name := by
  rw [sound.path]
  exact origin_claimName pid (lt_of_le_of_lt sound.time now) sound.pending

theorem rename_origins (inv : Inv s) {p : Process} (member : p ∈ s.procs) {src dst : Chars} {folder : Folder}
    (may : Progress.may (.rename src folder dst) p.progress) {entry : SpillFile}
    (found : s.dir.get .spill src = some entry) :
    ∃ name, origin .spill src = some name ∧ origin folder dst = some name := by
  cases folder with
  | rejected =>
    obtain ⟨h, held, rfl, rfl⟩ := may
    exact ⟨h.name, (inv.claims p member h held).origin inv.now, rfl⟩
  | spill =>
    simp only [Progress.may] at may
    split at may
    · rename_i h held
      obtain ⟨rfl, rfl⟩ := may
      have sound := inv.claims p member h held
      exact ⟨h.name, sound.origin inv.now, origin_pending sound.pending⟩
    · rcases may with ⟨pending, rfl⟩ | ⟨time, parsed, -⟩
      · have fits := lt_of_le_of_lt (inv.reads p member) inv.now
        exact ⟨src, origin_pending pending, origin_claimName _ fits pending⟩
      · have own := origin_of_parse parsed
        obtain ⟨name, record, same, known, -⟩ := inv.shelf.files _ _ _ found
        rw [own] at same
        cases same
        exact ⟨dst, own, origin_pending (inv.names _ _ known)⟩

/-- What an answered call leaves on disk: a record disappears only when it was accepted, or by the
    retention sweep. -/
theorem exec_keeps (inv : Inv s) {p : Process} (member : p ∈ s.procs) (luck : Luck) (c : ReplayCall)
    (may : Progress.may c p.progress) :
    Shelf (exec luck s.now s.dir c).2 s.spilled ∧ ∀ name record, Located s.dir name record →
      Located (exec luck s.now s.dir c).2 name record ∨
        (∃ h, p.progress.claim = some h ∧ h.acked = true ∧ h.name = name) ∨
        name ∈ (s.note p.progress c (exec luck s.now s.dir c).1).swept := by
  cases c with
  | rename src folder dst =>
    simp only [exec]
    split
    · rename_i entry _ found
      obtain ⟨name, own, same⟩ := rename_origins inv member may found
      exact ⟨inv.shelf.move found own same, fun _ _ located => .inl (located.move found inv.shelf own same)⟩
    · exact ⟨inv.shelf, fun _ _ located => .inl located⟩
  | touch file time =>
    simp only [exec]
    split
    · rename_i entry _ found
      refine ⟨inv.shelf.touch found time, fun _ _ located => .inl (located.put ?_)⟩
      intro entry' present
      rw [found] at present
      cases present
      rfl
    · exact ⟨inv.shelf, fun _ _ located => .inl located⟩
  | remove folder file =>
    cases removed : (exec luck s.now s.dir (.remove folder file)).1 with
    | false =>
      have same : (exec luck s.now s.dir (.remove folder file)).2 = s.dir := by
        simp only [exec] at removed ⊢
        split at removed
        · cases removed
        · rfl
      rw [same]
      exact ⟨inv.shelf, fun _ _ located => .inl located⟩
    | true =>
      have gone : (exec luck s.now s.dir (.remove folder file)).2 = s.dir.del folder file := by
        simp only [exec] at removed ⊢
        split at removed
        · rfl
        · cases removed
      rw [gone]
      refine ⟨inv.shelf.del folder file, ?_⟩
      intro name record located
      by_cases own : origin folder file = some name
      · cases folder with
        | spill =>
          obtain ⟨h, held, rfl, acked⟩ := may
          rw [(inv.claims p member h held).origin inv.now] at own
          cases own
          exact .inr (.inl ⟨h, held, acked, rfl⟩)
        | rejected =>
          cases own
          exact .inr (.inr List.mem_cons_self)
      · exact .inl (located.del own)
  | _ => exact ⟨inv.shelf, fun _ _ located => .inl located⟩

structure Later (s s' : FailedEvents) : Prop where
  now : s.now ≤ s'.now
  spilled : s'.spilled = s.spilled
  acked : ∀ entry ∈ s.acked, entry ∈ s'.acked
  swept : ∀ name ∈ s.swept, name ∈ s'.swept
  moved : s.moved <:+ s'.moved

theorem Sound.later {pid : Nat} {h : Holding} {s' : FailedEvents} (sound : s.Sound pid h) (later : Later s s') :
    s'.Sound pid h := by
  constructor
  · rw [later.spilled]
    exact sound.known
  · exact sound.pending
  · exact sound.path
  · exact sound.time.trans later.now
  · rw [later.spilled]
    exact sound.content
  · intro acked record member
    rw [later.spilled] at member
    exact later.acked _ (sound.acked acked record member)

theorem note_later (g : Progress) (c : ReplayCall) (answer : c.Answer) (dir : SpillDir) (procs : List Process) :
    Later s { s.note g c answer with dir, procs } := by
  cases c with
  | post url body =>
    simp only [note]
    split
    · split
      · exact ⟨le_refl _, rfl, fun _ member => List.mem_cons_of_mem _ member, fun _ member => member, List.suffix_refl _⟩
      · exact ⟨le_refl _, rfl, fun _ member => member, fun _ member => member, List.suffix_refl _⟩
    · exact ⟨le_refl _, rfl, fun _ member => member, fun _ member => member, List.suffix_refl _⟩
  | remove folder name =>
    cases folder <;> cases answer <;>
      exact ⟨le_refl _, rfl, fun _ member => member, fun _ member => by simp [note, member], List.suffix_refl _⟩
  | rename src folder dst =>
    have moved : s.moved <:+ (s.note g (.rename src folder dst) answer).moved := by
      cases folder <;> cases answer <;> simp [note]
    cases folder <;> cases answer <;> exact ⟨le_refl _, rfl, fun _ member => member, fun _ member => member, moved⟩
  | _ => exact ⟨le_refl _, rfl, fun _ member => member, fun _ member => member, List.suffix_refl _⟩

theorem sound_after (inv : Inv s) {p : Process} (member : p ∈ s.procs) (luck : Luck) (c : ReplayCall)
    (may : Progress.may c p.progress) {s' : FailedEvents} (later : Later s s')
    (noted : s'.acked = (s.note p.progress c (exec luck s.now s.dir c).1).acked) {h : Holding}
    (held : (p.progress.after c (exec luck s.now s.dir c).1).claim = some h) : s'.Sound p.progress.pid h := by
  have old : p.progress.claim = some h → s'.Sound p.progress.pid h :=
    fun held => (inv.claims p member h held).later later
  cases c with
  | rename src folder dst =>
    cases folder with
    | rejected => cases held
    | spill =>
      simp only [Progress.after] at held
      split at held
      · cases held
      · rename_i free
        split at held
        · rename_i claims
          simp only [Option.some.injEq] at held
          subst held
          simp only [Bool.and_eq_true] at claims
          obtain ⟨moved, pending⟩ := claims
          have found : ∃ entry, s.dir.get .spill src = some entry := by
            simp only [exec] at moved
            split at moved
            · rename_i entry _ found
              exact ⟨entry, found⟩
            · cases moved
          obtain ⟨entry, found⟩ := found
          obtain ⟨name, record, own, known, -⟩ := inv.shelf.files _ _ _ found
          rw [origin_pending pending] at own
          cases own
          have path : dst = claimName p.progress.pid p.progress.read src := by
            simp only [Progress.may, free] at may
            rcases may with ⟨-, path⟩ | ⟨time, parsed, -⟩
            · exact path
            · rw [parseClaim_of_pending pending] at parsed
              cases parsed
          constructor
          · rw [later.spilled]
            exact List.mem_map_of_mem known
          · exact pending
          · exact path
          · exact (inv.reads p member).trans later.now
          · intro record' impossible
            cases impossible
          · intro impossible
            cases impossible
        · exact old held
  | readFile path =>
    obtain ⟨h₀, held₀, rfl⟩ := may
    have sound := (inv.claims p member h₀ held₀).later later
    cases content : (exec luck s.now s.dir (.readFile h₀.path)).1 with
    | none =>
      rw [content] at held
      simp only [Progress.after, held₀, Option.map_some, Option.some.injEq] at held
      subst held
      exact ⟨sound.known, sound.pending, sound.path, sound.time, by simp, sound.acked⟩
    | some found =>
      rw [content] at held
      cases found with
      | garbage =>
        simp only [Progress.after, held₀, Option.map_some, Option.some.injEq] at held
        subst held
        exact ⟨sound.known, sound.pending, sound.path, sound.time, by simp, sound.acked⟩
      | record record =>
        simp only [Progress.after, held₀, Option.map_some, Option.some.injEq] at held
        subst held
        refine ⟨sound.known, sound.pending, sound.path, sound.time, ?_, sound.acked⟩
        intro record' same
        simp only [Option.some.injEq] at same
        subst same
        simp only [exec] at content
        split at content
        · cases content
        · obtain ⟨entry, present, stored⟩ := Option.map_eq_some_iff.mp content
          obtain ⟨name, record', own, known, stored'⟩ := inv.shelf.files _ _ _ present
          rw [(inv.claims p member h₀ held₀).origin inv.now] at own
          cases own
          rw [stored] at stored'
          cases stored'
          rw [later.spilled]
          exact known
  | post url body =>
    obtain ⟨h₀, record₀, held₀, read, rfl⟩ := may
    have sound := inv.claims p member h₀ held₀
    have sound' := sound.later later
    simp only [Progress.after, held₀, Option.map_some, Option.some.injEq] at held
    subst held
    refine ⟨sound'.known, sound'.pending, sound'.path, sound'.time, sound'.content, ?_⟩
    intro accepted record known
    rw [later.spilled] at known
    have same := inv.unique known (sound.content record₀ read)
    subst same
    simp only at accepted
    rw [noted]
    simp [note, held₀, accepted]
  | makeRejected =>
    cases made : (exec luck s.now s.dir .makeRejected).1 with
    | false =>
      rw [made] at held
      cases held
    | true =>
      rw [made] at held
      exact old held
  | remove folder name =>
    cases folder with
    | spill => cases held
    | rejected => exact old held
  | _ => exact old held

theorem after_same (g : Progress) (c : ReplayCall) (answer : c.Answer) :
    (g.after c answer).pid = g.pid ∧ (c ≠ .clock → (g.after c answer).read = g.read) := by
  cases c with
  | clock => exact ⟨rfl, fun impossible => absurd rfl impossible⟩
  | rename src folder dst =>
    cases folder with
    | rejected => exact ⟨rfl, fun _ => rfl⟩
    | spill =>
      simp only [Progress.after]
      split
      · exact ⟨rfl, fun _ => rfl⟩
      · split <;> exact ⟨rfl, fun _ => rfl⟩
  | readFile path =>
    cases answer with
    | none => exact ⟨rfl, fun _ => rfl⟩
    | some content => cases content <;> exact ⟨rfl, fun _ => rfl⟩
  | makeRejected => cases answer <;> exact ⟨rfl, fun _ => rfl⟩
  | remove folder name => cases folder <;> exact ⟨rfl, fun _ => rfl⟩
  | _ => exact ⟨rfl, fun _ => rfl⟩

theorem after_read (g : Progress) (c : ReplayCall) (luck : Luck) (early : g.read ≤ s.now) :
    (g.after c (exec luck s.now s.dir c).1).read ≤ s.now := by
  by_cases clock : c = .clock
  · subst clock
    exact le_refl _
  · rw [(after_same g c _).2 clock]
    exact early

theorem note_now (g : Progress) (c : ReplayCall) (answer : c.Answer) : (s.note g c answer).now = s.now := by
  cases c with
  | post url body =>
    simp only [note]
    split
    · split <;> rfl
    · rfl
  | remove folder name => cases folder <;> cases answer <;> rfl
  | rename src folder dst => cases folder <;> cases answer <;> rfl
  | _ => rfl

theorem next_step {i : Nat} {luck : Luck} {s' : FailedEvents} (step : s.next (.step i luck) = some s') :
    ∃ c rest g, s.procs[i]? = some ⟨.call c rest, g⟩ ∧
      s' = { s.note g c (exec luck s.now s.dir c).1 with
        dir := (exec luck s.now s.dir c).2
        procs := s.procs.set i ⟨rest (exec luck s.now s.dir c).1, g.after c (exec luck s.now s.dir c).1⟩ } := by
  simp only [next] at step
  split at step
  · rename_i c rest g found
    cases step
    exact ⟨c, rest, g, found, rfl⟩
  · cases step

theorem chore_follows (r : Replayer) (chore : Chore) :
    Follows replayStages (fun _ _ => True) (chore.prog r) { pid := r.pid } := by
  cases chore with
  | replay =>
    apply Follows.bind
    exact (runOnce_follows rfl rfl).mono fun _ _ _ => trivial
  | sweep => exact (sweepRejected_follows rfl).mono fun _ _ _ => trivial

theorem spillName_pending (time seq : Nat) (kind : Chars) : isPending (spillName time seq kind) = true := by
  have json : suffixJson <:+ spillName time seq kind := ⟨_, rfl⟩
  have plain : ¬ ['.'] <+: spillName time seq kind := by
    intro dotted
    obtain ⟨rest, same⟩ := dotted
    obtain ⟨c, cs, digits⟩ := List.exists_cons_of_ne_nil (Text.padDecimal_ne_nil 19 time)
    have digit : c.isDigit = true := by
      have member : c ∈ Text.padDecimal 19 time := by simp [digits]
      exact Text.isDigit_of_mem_padDecimal member
    simp only [spillName, digits, List.cons_append, List.nil_append, List.cons.injEq] at same
    rw [← same.1] at digit
    exact absurd digit (by decide)
  simp [isPending, json, plain]

theorem inv_start {now : Nat} (fits : now < 2 ^ 63) : Inv { now } := by
  constructor
  · simp
  · simp
  · exact fits
  · simp
  · simp
  · constructor
    · intro folder file entry present
      cases present
    · intro folder file entry folder' file' entry' name present
      cases present
  · simp
  · simp

theorem Inv.spill (inv : Inv s) {time seq : Nat} {record : SpillRecord}
    (fresh : spillName time seq record.kind ∉ s.spilled.map Prod.fst) :
    Inv { s with
      dir := s.dir.put .spill (spillName time seq record.kind) ⟨.record record, s.now⟩
      spilled := (spillName time seq record.kind, record) :: s.spilled } := by
  have pending := spillName_pending time seq record.kind
  constructor
  · exact inv.follows
  · exact inv.reads
  · exact inv.now
  · intro name record' member
    rcases List.mem_cons.mp member with new | old
    · cases new
      exact pending
    · exact inv.names name record' old
  · exact List.nodup_cons.mpr ⟨fresh, inv.nodup⟩
  · exact inv.shelf.spill pending fresh record s.now
  · intro name record' member
    rcases List.mem_cons.mp member with new | old
    · cases new
      exact .inr (.inr ⟨.spill, _, s.now, origin_pending pending, by simp [Folders.get_put]⟩)
    · rcases inv.kept name record' old with acked | swept | located
      · exact .inl acked
      · exact .inr (.inl swept)
      · refine .inr (.inr (located.put ?_))
        intro entry present
        obtain ⟨name', record₀, own, known, -⟩ := inv.shelf.files _ _ _ present
        rw [origin_pending pending] at own
        cases own
        exact (fresh (List.mem_map_of_mem known)).elim
  · intro p member h held
    have sound := inv.claims p member h held
    constructor
    · exact List.mem_cons_of_mem _ sound.known
    · exact sound.pending
    · exact sound.path
    · exact sound.time
    · intro record' read
      exact List.mem_cons_of_mem _ (sound.content record' read)
    · intro acked record' member'
      rcases List.mem_cons.mp member' with new | old
      · exact (fresh ((Prod.mk.inj new).1 ▸ sound.known)).elim
      · exact sound.acked acked record' old

theorem Inv.step (inv : Inv s) {i : Nat} {c : ReplayCall} {rest : c.Answer → Replay Unit} {g : Progress}
    (at_ : s.procs[i]? = some ⟨.call c rest, g⟩) (luck : Luck) :
    Inv { s.note g c (exec luck s.now s.dir c).1 with
      dir := (exec luck s.now s.dir c).2
      procs := s.procs.set i ⟨rest (exec luck s.now s.dir c).1, g.after c (exec luck s.now s.dir c).1⟩ } := by
  have member : (⟨.call c rest, g⟩ : Process) ∈ s.procs := List.mem_of_getElem? at_
  have path := inv.follows _ member
  have may : Progress.may c g := path.1
  have later := note_later (s := s) g c (exec luck s.now s.dir c).1 (exec luck s.now s.dir c).2
    (s.procs.set i ⟨rest (exec luck s.now s.dir c).1, g.after c (exec luck s.now s.dir c).1⟩)
  obtain ⟨shelf, located⟩ := exec_keeps inv member luck c may
  have same : ∀ name record, (name, record) ∈ (s.note g c (exec luck s.now s.dir c).1).spilled → (name, record) ∈ s.spilled :=
    fun name record known => later.spilled ▸ known
  constructor
  · intro p inside
    rcases mem_replace inside with rfl | old
    · exact path.2 _ trivial
    · exact inv.follows p old
  · intro p inside
    rw [note_now]
    rcases mem_replace inside with rfl | old
    · exact after_read g c luck (inv.reads _ member)
    · exact inv.reads p old
  · rw [note_now]
    exact inv.now
  · intro name record known
    exact inv.names name record (same name record known)
  · have nodup := inv.nodup
    rw [← later.spilled] at nodup
    exact nodup
  · have shelf' := shelf
    rw [← later.spilled] at shelf'
    exact shelf'
  · intro name record known
    have old := same name record known
    rcases inv.kept name record old with acked | swept | found
    · exact .inl (later.acked _ acked)
    · exact .inr (.inl (later.swept _ swept))
    · rcases located name record found with still | ⟨h, held, acked, rfl⟩ | swept
      · exact .inr (.inr still)
      · exact .inl (later.acked _ ((inv.claims _ member h held).acked acked record old))
      · exact .inr (.inl swept)
  · intro p inside h held
    rcases mem_replace inside with rfl | old
    · rw [(after_same g c _).1]
      exact sound_after inv member luck c may later rfl held
    · exact (inv.claims p old h held).later later

/-- Whatever happens next, no spilled record gets lost. -/
theorem Inv.next (inv : Inv s) {act : Act} {s' : FailedEvents} (step : s.next act = some s') : Inv s' := by
  cases act with
  | tick now =>
    simp only [FailedEvents.next] at step
    split at step
    · rename_i fits
      cases step
      have later : Later s { s with now } :=
        ⟨fits.1, rfl, fun _ member => member, fun _ member => member, List.suffix_refl _⟩
      exact ⟨inv.follows, fun p member => (inv.reads p member).trans fits.1, fits.2, inv.names, inv.nodup, inv.shelf,
        inv.kept, fun p member h held => (inv.claims p member h held).later later⟩
    · cases step
  | spill time seq record =>
    simp only [FailedEvents.next] at step
    split at step
    · cases step
    · rename_i fresh
      cases step
      exact inv.spill fresh
  | begin r chore =>
    cases step
    have started : ∀ p ∈ s.procs ++ [⟨chore.prog r, { pid := r.pid }⟩],
        p ∈ s.procs ∨ p = ⟨chore.prog r, { pid := r.pid }⟩ := by
      intro p member
      simpa using member
    constructor
    · intro p member
      rcases started p member with old | rfl
      · exact inv.follows p old
      · exact chore_follows r chore
    · intro p member
      rcases started p member with old | rfl
      · exact inv.reads p old
      · exact Nat.zero_le _
    · exact inv.now
    · exact inv.names
    · exact inv.nodup
    · exact inv.shelf
    · exact inv.kept
    · intro p member h held
      rcases started p member with old | rfl
      · exact (inv.claims p old h held).later
          ⟨le_refl _, rfl, fun _ member => member, fun _ member => member, List.suffix_refl _⟩
      · cases held
  | step i luck =>
    obtain ⟨c, rest, g, at_, rfl⟩ := next_step step
    exact inv.step at_ luck
  | crash i =>
    cases step
    constructor
    · intro p member
      rcases mem_replace member with rfl | old
      · trivial
      · exact inv.follows p old
    · intro p member
      rcases mem_replace member with rfl | old
      · exact Nat.zero_le _
      · exact inv.reads p old
    · exact inv.now
    · exact inv.names
    · exact inv.nodup
    · exact inv.shelf
    · exact inv.kept
    · intro p member h held
      rcases mem_replace member with rfl | old
      · cases held
      · exact (inv.claims p old h held).later
          ⟨le_refl _, rfl, fun _ member => member, fun _ member => member, List.suffix_refl _⟩

/-- The claimed file of everybody who works on one is there, unless the claim is old enough to be
    taken for abandoned, and nobody else has the same claim. -/
structure Grip (s : FailedEvents) : Prop where
  standing : ∀ p ∈ s.procs, ∀ h, p.progress.claim = some h →
    s.dir.get .spill h.path ≠ none ∨ h.time + claimGrace < s.now
  distinct : ∀ (i j : Nat) (p q : Process) (h h' : Holding), s.procs[i]? = some p → s.procs[j]? = some q → p.progress.claim = some h →
    q.progress.claim = some h' → h.path = h'.path → i = j

theorem exec_file (luck : Luck) (now : Nat) (d : SpillDir) (c : ReplayCall) {file : Chars}
    (there : d.get .spill file ≠ none) :
    (exec luck now d c).2.get .spill file ≠ none ∨ (∃ folder dst, c = .rename file folder dst) ∨
      c = .remove .spill file := by
  cases c with
  | rename src folder dst =>
    by_cases own : file = src
    · subst own
      exact .inr (.inl ⟨folder, dst, rfl⟩)
    · left
      simp only [exec]
      split
      · rw [Folders.get_move]
        split
        · exact Option.some_ne_none _
        · rw [if_neg fun same => own same.2]
          exact there
      · exact there
  | remove folder name =>
    by_cases own : folder = .spill ∧ name = file
    · rw [own.1, own.2]
      exact .inr (.inr rfl)
    · left
      simp only [exec]
      split
      · rw [Folders.get_del, if_neg fun same => own ⟨same.1.symm, same.2.symm⟩]
        exact there
      · exact there
  | touch name time =>
    left
    simp only [exec]
    split
    · rw [Folders.get_put, if_neg (by simp)]
      exact there
    · exact there
  | _ => exact .inl there

/-- A call leaves a replayer with the claim it had, the directory as it was, or with a new claim. -/
theorem after_claim {g : Progress} (luck : Luck) (now : Nat) (d : SpillDir) (c : ReplayCall) {h : Holding}
    (held : (g.after c (exec luck now d c).1).claim = some h) :
    (∃ h₀, g.claim = some h₀ ∧ h.path = h₀.path ∧ h.time = h₀.time ∧
      ∀ file, (exec luck now d c).2.get .spill file = d.get .spill file) ∨
    c = .rename h.name .spill h.path ∧ h.answered = false ∧ h.time = g.read ∧
      (∃ entry, d.get .spill h.name = some entry) ∧ (exec luck now d c).2.get .spill h.path ≠ none := by
  cases c with
  | rename src folder dst =>
    cases folder with
    | rejected => cases held
    | spill =>
      simp only [Progress.after] at held
      split at held
      · cases held
      · rename_i free
        split at held
        · rename_i claims
          simp only [Option.some.injEq] at held
          subst held
          simp only [Bool.and_eq_true] at claims
          right
          obtain ⟨moved, -⟩ := claims
          simp only [exec] at moved ⊢
          split at moved
          · rename_i entry _ found
            simp [found, Folders.get_move]
          · cases moved
        · rw [free] at held
          cases held
  | readFile path =>
    left
    cases content : (exec luck now d (.readFile path)).1 with
    | none =>
      rw [content] at held
      obtain ⟨h₀, held₀, rfl⟩ := Option.map_eq_some_iff.mp held
      exact ⟨h₀, held₀, rfl, rfl, fun _ => rfl⟩
    | some found =>
      rw [content] at held
      cases found with
      | garbage =>
        obtain ⟨h₀, held₀, rfl⟩ := Option.map_eq_some_iff.mp held
        exact ⟨h₀, held₀, rfl, rfl, fun _ => rfl⟩
      | record record =>
        obtain ⟨h₀, held₀, rfl⟩ := Option.map_eq_some_iff.mp held
        exact ⟨h₀, held₀, rfl, rfl, fun _ => rfl⟩
  | post url body =>
    obtain ⟨h₀, held₀, rfl⟩ := Option.map_eq_some_iff.mp held
    exact .inl ⟨h₀, held₀, rfl, rfl, fun _ => rfl⟩
  | makeRejected =>
    cases made : (exec luck now d .makeRejected).1 with
    | false =>
      rw [made] at held
      cases held
    | true =>
      rw [made] at held
      exact .inl ⟨h, held, rfl, rfl, fun _ => rfl⟩
  | remove folder name =>
    cases folder with
    | spill => cases held
    | rejected =>
      refine .inl ⟨h, held, rfl, rfl, ?_⟩
      intro file
      simp only [exec]
      split
      · simp [Folders.get_del]
      · rfl
  | touch name time =>
    refine .inl ⟨h, held, rfl, rfl, ?_⟩
    intro file
    simp only [exec]
    split
    · simp [Folders.get_put]
    · rfl
  | _ => exact .inl ⟨h, held, rfl, rfl, fun _ => rfl⟩

theorem Sound.same_time {s' : FailedEvents} {pid pid' : Nat} {h h' : Holding} (sound : s.Sound pid h)
    (sound' : s'.Sound pid' h') (now : s.now < 2 ^ 63) (now' : s'.now < 2 ^ 63) (same : h.path = h'.path) :
    h.time = h'.time ∧ h.name = h'.name := by
  have parsed := parseClaim_claimName pid (lt_of_le_of_lt sound.time now) (ne_nil_of_pending sound.pending)
  have parsed' := parseClaim_claimName pid' (lt_of_le_of_lt sound'.time now') (ne_nil_of_pending sound'.pending)
  rw [← sound.path, same, sound'.path, parsed'] at parsed
  simp only [Option.some.injEq, Prod.mk.injEq, Nat.cast_inj] at parsed
  exact ⟨parsed.2.symm, parsed.1.symm⟩

theorem Grip.stands (inv : Inv s) (grip : Grip s) {i j : Nat} {c : ReplayCall} {rest : c.Answer → Replay Unit} {g : Progress}
    {q : Process} {h : Holding} (at_ : s.procs[i]? = some ⟨.call c rest, g⟩) (other : s.procs[j]? = some q)
    (apart : j ≠ i) (held : q.progress.claim = some h) (luck : Luck) :
    (exec luck s.now s.dir c).2.get .spill h.path ≠ none ∨ h.time + claimGrace < s.now := by
  have member : (⟨.call c rest, g⟩ : Process) ∈ s.procs := List.mem_of_getElem? at_
  have sound := inv.claims q (List.mem_of_getElem? other) h held
  have may : Progress.may c g := (inv.follows _ member).1
  have foreign : ∀ h₀, g.claim = some h₀ → h.path ≠ h₀.path := by
    intro h₀ held₀ same
    exact apart (grip.distinct j i q _ h h₀ other at_ held held₀ same)
  rcases grip.standing q (List.mem_of_getElem? other) h held with there | old
  · rcases exec_file luck s.now s.dir c there with still | ⟨folder, dst, rfl⟩ | rfl
    · exact .inl still
    · cases folder with
      | rejected =>
        obtain ⟨h₀, held₀, same, -⟩ := may
        exact (foreign h₀ held₀ same).elim
      | spill =>
        simp only [Progress.may] at may
        split at may
        · rename_i h₀ held₀
          exact (foreign h₀ held₀ may.1).elim
        · rcases may with ⟨pending, -⟩ | ⟨time, parsed, late⟩
          · rw [sound.path, claimName_not_pending] at pending
            cases pending
          · have parsed' := parseClaim_claimName q.progress.pid (lt_of_le_of_lt sound.time inv.now)
              (ne_nil_of_pending sound.pending)
            rw [← sound.path, parsed] at parsed'
            simp only [Option.some.injEq, Prod.mk.injEq] at parsed'
            have read := inv.reads _ member
            simp only at read
            right
            omega
    · obtain ⟨h₀, held₀, same, -⟩ := may
      exact (foreign h₀ held₀ same).elim
  · exact .inr old

theorem Grip.step (inv : Inv s) (grip : Grip s) {i : Nat} {c : ReplayCall} {rest : c.Answer → Replay Unit} {g : Progress}
    (at_ : s.procs[i]? = some ⟨.call c rest, g⟩) (luck : Luck) {s' : FailedEvents}
    (after : s' = { s.note g c (exec luck s.now s.dir c).1 with
      dir := (exec luck s.now s.dir c).2
      procs := s.procs.set i ⟨rest (exec luck s.now s.dir c).1, g.after c (exec luck s.now s.dir c).1⟩ })
    (inv' : Inv s') (prompt : s'.Prompt) : Grip s' := by
  have now : s'.now = s.now := by
    rw [after]
    exact note_now g c _
  have dir : s'.dir = (exec luck s.now s.dir c).2 := by rw [after]
  have procs : s'.procs = s.procs.set i ⟨rest (exec luck s.now s.dir c).1, g.after c (exec luck s.now s.dir c).1⟩ := by
    rw [after]
  have inside : i < s.procs.length := (List.getElem?_eq_some_iff.mp at_).1
  have here : (⟨rest (exec luck s.now s.dir c).1, g.after c (exec luck s.now s.dir c).1⟩ : Process) ∈ s'.procs := by
    rw [procs]
    exact List.mem_set inside _
  -- the replayer's own claim against another one's
  have crossed : ∀ j q h h', j ≠ i → s.procs[j]? = some q → q.progress.claim = some h' →
      (g.after c (exec luck s.now s.dir c).1).claim = some h → h.path ≠ h'.path := by
    intro j q h h' apart other held' held same
    rcases after_claim luck s.now s.dir c held with ⟨h₀, held₀, path, -, -⟩ | ⟨-, fresh, time, ⟨entry, found⟩, -⟩
    · exact apart (grip.distinct j i q _ h' h₀ other at_ held' held₀ (same.symm.trans path))
    · have sound := inv'.claims _ here h held
      have sound' := inv.claims q (List.mem_of_getElem? other) h' held'
      have times := sound.same_time sound' inv'.now inv.now same
      rcases grip.standing q (List.mem_of_getElem? other) h' held' with there | old
      · obtain ⟨entry', present⟩ := Option.ne_none_iff_exists'.mp there
        have sole := (inv.shelf.alone _ _ _ _ _ _ _ found present (origin_pending sound.pending)
          ((sound'.origin inv.now).trans (congrArg some times.2.symm))).2
        have pending := sound.pending
        rw [sole, sound'.path, claimName_not_pending] at pending
        cases pending
      · have young := prompt _ here h held fresh
        omega
  constructor
  · intro p member h held
    rw [now, dir]
    obtain ⟨j, at_'⟩ := List.mem_iff_getElem?.mp member
    rw [procs] at at_'
    rcases getElem?_replace at_' with ⟨rfl, rfl⟩ | ⟨apart, other⟩
    · rcases after_claim luck s.now s.dir c held with ⟨h₀, held₀, path, time, same⟩ | ⟨-, -, -, -, there⟩
      · rw [same, path, time]
        exact grip.standing _ (List.mem_of_getElem? at_) h₀ held₀
      · exact .inl there
    · exact grip.stands inv at_ other apart held luck
  · intro a b p q h h' first second held held' same
    rw [procs] at first second
    rcases getElem?_replace first with ⟨rfl, rfl⟩ | ⟨apart, other⟩ <;>
      rcases getElem?_replace second with ⟨rfl, rfl⟩ | ⟨apart', other'⟩
    · rfl
    · exact (crossed b q h h' apart' other' held' held same).elim
    · exact (crossed a p h' h apart other held held' same.symm).elim
    · exact grip.distinct a b p q h h' other other' held held' same

theorem getElem?_started {procs : List Process} {p q : Process} {j : Nat} (at_ : (procs ++ [p])[j]? = some q) :
    procs[j]? = some q ∨ q = p := by
  rw [List.getElem?_append] at at_
  split at at_
  · exact .inl at_
  · rw [List.getElem?_singleton] at at_
    split at at_
    · cases at_
      exact .inr rfl
    · cases at_

/-- As long as POSTs end in time, everybody keeps the claim they took, and nobody shares one. -/
theorem Grip.next (inv : Inv s) (grip : Grip s) {act : Act} {s' : FailedEvents} (step : s.next act = some s')
    (prompt : s'.Prompt) : Grip s' := by
  have inv' := inv.next step
  cases act with
  | tick now =>
    simp only [FailedEvents.next] at step
    split at step
    · rename_i fits
      cases step
      constructor
      · intro p member h held
        rcases grip.standing p member h held with there | old
        · exact .inl there
        · exact .inr (lt_of_lt_of_le old fits.1)
      · exact grip.distinct
    · cases step
  | spill time seq record =>
    simp only [FailedEvents.next] at step
    split at step
    · cases step
    · cases step
      constructor
      · intro p member h held
        rcases grip.standing p member h held with there | old
        · left
          rw [Folders.get_put]
          split
          · exact Option.some_ne_none _
          · exact there
        · exact .inr old
      · exact grip.distinct
  | begin r chore =>
    cases step
    constructor
    · intro p member h held
      rcases List.mem_append.mp member with old | new
      · exact grip.standing p old h held
      · rw [List.mem_singleton.mp new] at held
        cases held
    · intro i j p q h h' first second held held' same
      rcases getElem?_started first with old | rfl
      · rcases getElem?_started second with old' | rfl
        · exact grip.distinct i j p q h h' old old' held held' same
        · cases held'
      · cases held
  | step i luck =>
    obtain ⟨c, rest, g, at_, after⟩ := next_step step
    exact grip.step inv at_ luck after inv' prompt
  | crash i =>
    cases step
    constructor
    · intro p member h held
      rcases mem_replace member with rfl | old
      · cases held
      · exact grip.standing p old h held
    · intro a b p q h h' first second held held' same
      rcases getElem?_replace first with ⟨-, rfl⟩ | ⟨-, other⟩
      · cases held
      · rcases getElem?_replace second with ⟨-, rfl⟩ | ⟨-, other'⟩
        · cases held'
        · exact grip.distinct a b p q h h' other other' held held' same

theorem Grip.sole (inv : Inv s) (grip : Grip s) (prompt : s.Prompt) {i j : Nat} {p q : Process} {name : Chars}
    (first : s.procs[i]? = some p) (second : s.procs[j]? = some q) (holds : s.Holds p name) (holds' : s.Holds q name) :
    i = j := by
  have there : ∀ (p : Process) (h : Holding), p ∈ s.procs → p.progress.claim = some h →
      (h.answered = false ∨ s.dir.get .spill h.path ≠ none) → ∃ entry, s.dir.get .spill h.path = some entry := by
    intro p h member held alive
    apply Option.ne_none_iff_exists'.mp
    rcases alive with waiting | present
    · have young := prompt p member h held waiting
      rcases grip.standing p member h held with present | old
      · exact present
      · omega
    · exact present
  obtain ⟨h, held, rfl, alive⟩ := holds
  obtain ⟨h', held', same, alive'⟩ := holds'
  have member := List.mem_of_getElem? first
  have member' := List.mem_of_getElem? second
  obtain ⟨entry, found⟩ := there p h member held alive
  obtain ⟨entry', found'⟩ := there q h' member' held' alive'
  have own := (inv.claims p member h held).origin inv.now
  have own' := (inv.claims q member' h' held').origin inv.now
  rw [same] at own'
  have path := (inv.shelf.alone _ _ _ _ _ _ _ found found' own own').2
  exact grip.distinct i j p q h h' first second held held' path

end FailedEvents

end Mailgw.Events
