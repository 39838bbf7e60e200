import Calculator.Proofs.Files

/-!
# Runs of file requests

Requests on any number of files, in any order, are answered as the plain files answer them, and once
the output is written out the host stores what the plain files hold. The only limit is the host's own:
it refuses to go, or to write, past the largest file that it can hold.
-/

namespace Calculator

theorem Position.toNat_of_toAbsolute {position : Int} {target : Nat}
    (taken : toAbsolute position = .ok target) : target = position.toNat := by
  rw [toAbsolute, toOffset] at taken
  by_cases fits : Number.fitsWord position = true
  · rw [if_pos fits] at taken
    by_cases negative : position < 0
    · simp [bind, Except.bind, negative] at taken
    · simp only [bind, Except.bind, negative, if_false, Except.ok.injEq] at taken
      exact taken.symm
  · rw [if_neg fits] at taken
    cases taken

namespace FileRequest

variable {files : Files} {home : FileId → NodeId} {handles : List FileId} {plain : PlainFiles}
  {request : FileRequest} {shown : PlainEntry} {error : FileError}

/-- Finds the entry of a request, in the mode that it asks for. -/
def lookup (request : FileRequest) : FileM Entry :=
  if request.reads then Files.readableEntry request.handle
  else if request.writes then Files.writableEntry request.handle
  else Files.entry request.handle

theorem perform_unchecked (checked : request.checkArguments = .error error) (files : Files) :
    request.perform files = (.error error, files) := by
  cases request with
  | seek id offset whence =>
      apply Effect.bind_error
      rw [checkArguments] at checked
      unfold Files.seek
      cases counted : Position.toOffset offset <;> rw [counted] at checked <;> cases checked
      rfl
  | setPosition id position =>
      apply Effect.bind_error
      rw [checkArguments] at checked
      unfold Files.setPosition
      cases standard : id.isStandard <;> rw [standard] at checked
      · cases counted : Position.toAbsolute position <;> rw [counted] at checked <;> cases checked
        rfl
      · cases checked
        rfl
  | search id needle start finish =>
      apply Effect.bind_error
      rw [checkArguments] at checked
      unfold Files.search
      cases first : Position.toAbsolute start <;> rw [first] at checked
      · cases checked
        rfl
      · cases last : Position.toAbsolute finish <;> rw [last] at checked <;> cases checked
        rfl
  | searchBack id needle first last =>
      apply Effect.bind_error
      rw [checkArguments] at checked
      unfold Files.searchBack
      cases high : Position.toAbsolute first <;> rw [high] at checked
      · cases checked
        rfl
      · cases low : Position.toAbsolute last <;> rw [low] at checked <;> cases checked
        rfl
  | _ => cases checked

section Checked

variable {id : FileId} {needle : Bytes}

theorem seek_checked {offset whence : Int}
    (checked : (seek id offset whence).checkArguments = .ok ()) :
    Position.toOffset offset = .ok offset := by
  rw [checkArguments, Position.toOffset] at checked
  rw [Position.toOffset]
  split at checked
  · exact if_pos ‹_›
  · cases checked

theorem setPosition_checked {position : Int}
    (checked : (setPosition id position).checkArguments = .ok ()) :
    id.isStandard = false ∧ Position.toAbsolute position = .ok position.toNat := by
  rw [checkArguments] at checked
  cases standard : id.isStandard <;> rw [standard] at checked
  · cases taken : Position.toAbsolute position with
    | error _ => rw [taken] at checked; cases checked
    | ok target => rw [Position.toNat_of_toAbsolute taken]; exact ⟨rfl, rfl⟩
  · cases checked

theorem search_checked {start finish : Int}
    (checked : (search id needle start finish).checkArguments = .ok ()) :
    Position.toAbsolute start = .ok start.toNat ∧ Position.toAbsolute finish = .ok finish.toNat := by
  rw [checkArguments] at checked
  cases first : Position.toAbsolute start <;> rw [first] at checked
  · cases checked
  · cases last : Position.toAbsolute finish <;> rw [last] at checked
    · cases checked
    · rw [Position.toNat_of_toAbsolute first, Position.toNat_of_toAbsolute last]
      exact ⟨rfl, rfl⟩

theorem searchBack_checked {first last : Int}
    (checked : (searchBack id needle first last).checkArguments = .ok ()) :
    Position.toAbsolute first = .ok first.toNat ∧ Position.toAbsolute last = .ok last.toNat :=
  @search_checked id needle first last checked

end Checked

theorem perform_missed (checked : request.checkArguments = .ok ())
    (missed : request.lookup files = (.error error, files)) :
    request.perform files = (.error error, files) := by
  cases request with
  | readChar id => exact Effect.bind_error (Effect.bind_error missed)
  | unreadChar id byte => exact Effect.bind_error (Effect.bind_error missed)
  | readText id options => exact Effect.bind_error (Effect.bind_error missed)
  | readBytes id count => exact Effect.bind_error (Effect.bind_error missed)
  | write id bytes => exact Effect.bind_error (Effect.bind_error missed)
  | writeTerminated id bytes =>
      exact Effect.bind_error (Effect.bind_error (Effect.bind_error missed))
  | rewind id => exact Effect.bind_error (Effect.bind_error missed)
  | tell id => exact Effect.bind_error (Effect.bind_error missed)
  | size id => exact Effect.bind_error (Effect.bind_error missed)
  | flush id => exact Effect.bind_error (Effect.bind_error missed)
  | isEof id => exact Effect.bind_error (Effect.bind_error missed)
  | seek id offset whence =>
      apply Effect.bind_error
      unfold Files.seek
      rw [seek_checked checked, Effect.lift_ok_bind_run]
      exact Effect.bind_error (Effect.bind_error missed)
  | setPosition id position =>
      obtain ⟨ordinary, taken⟩ := setPosition_checked checked
      apply Effect.bind_error
      unfold Files.setPosition
      rw [if_neg (by simp [ordinary]), taken]
      exact (Effect.lift_ok_bind_run _ _ files).trans (Effect.bind_error missed)
  | search id needle start finish =>
      obtain ⟨first, last⟩ := search_checked checked
      apply Effect.bind_error
      unfold Files.search
      rw [first, last, Effect.lift_ok_bind_run, Effect.lift_ok_bind_run]
      exact Effect.bind_error missed
  | searchBack id needle first last =>
      obtain ⟨high, low⟩ := searchBack_checked checked
      apply Effect.bind_error
      unfold Files.searchBack
      rw [high, low, Effect.lift_ok_bind_run, Effect.lift_ok_bind_run]
      exact Effect.bind_error missed

theorem writes_of_reads (reading : request.reads = true) : request.writes = false := by
  cases request <;> first | rfl | cases reading

/-- An admitted request has good arguments and an open file in the mode that it needs. -/
theorem file?_eq_ok (admitted : request.file? plain = .ok shown) :
    request.checkArguments = .ok () ∧ plain request.handle = some shown
      ∧ (request.reads = true → shown.mode.reading = true)
      ∧ (request.writes = true → shown.mode.writing = true) := by
  rw [file?] at admitted
  cases checked : request.checkArguments with
  | error reason => rw [checked] at admitted; cases admitted
  | ok _ =>
      rw [checked] at admitted
      cases visible : plain request.handle with
      | none => rw [visible] at admitted; cases admitted
      | some entry =>
          rw [visible] at admitted
          simp only [bind, Except.bind] at admitted
          split at admitted
          · cases admitted
          · split at admitted
            · cases admitted
            · cases admitted
              simp_all

theorem perform_refused (mirrors : files.Mirrors home handles plain)
    (tracked : request.handle ∈ handles) (refused : request.file? plain = .error error) :
    request.perform files = (.error error, files) := by
  rw [file?] at refused
  cases checked : request.checkArguments with
  | error reason =>
      rw [checked] at refused
      cases refused
      exact perform_unchecked checked files
  | ok _ =>
      rw [checked] at refused
      apply perform_missed checked
      rw [lookup]
      cases visible : plain request.handle with
      | none =>
          have missing := Files.entry_missing (mirrors.missing tracked visible)
          rw [visible] at refused
          cases refused
          split
          · exact Effect.bind_error missing
          · split
            · exact Effect.bind_error missing
            · exact missing
      | some shown =>
          obtain ⟨entry, found, shows⟩ := mirrors.find tracked visible
          rw [visible] at refused
          simp only [bind, Except.bind, shows.mode] at refused
          split at refused
          · cases refused
            have ⟨reading, unreadable⟩ : request.reads = true ∧ entry.mode.reading = false := by
              simpa using ‹(request.reads && !entry.mode.reading) = true›
            rw [if_pos reading]
            exact Files.readableEntry_refused found unreadable
          · split at refused
            · cases refused
              have ⟨writing, unwritable⟩ : request.writes = true ∧ entry.mode.writing = false := by
                simpa using ‹(request.writes && !entry.mode.writing) = true›
              have elsewhere : request.reads ≠ true := by
                intro reading
                rw [writes_of_reads reading] at writing
                cases writing
              rw [if_neg elsewhere, if_pos writing]
              exact Files.writableEntry_refused found unwritable
            · cases refused

/-- A request that is admitted and stays inside does to its file what the plain request does. -/
theorem perform_admitted (mirrors : files.Mirrors home handles plain)
    (tracked : request.handle ∈ handles) (admitted : request.file? plain = .ok shown)
    (pushes : request.pushesInside shown.file = true)
    (stays : request.staysInside shown.file = true) :
    request.perform.Gives files home handles (request.act shown.file).1
      (plain.set request.handle { shown with file := (request.act shown.file).2 }) := by
  obtain ⟨checked, visible, readable, writable⟩ := file?_eq_ok admitted
  have inside : request.reach shown.file ≤ Content.maxSize := of_decide_eq_true stays
  have same := PlainFiles.set_of_visible visible
  have unchanged (after : Files) (reached : after.Mirrors home handles plain) :
      after.Mirrors home handles (plain.set request.handle shown) := by rwa [same]
  cases request with
  | readChar id =>
      exact (Files.readChar_gives mirrors tracked visible (readable rfl)).map FileAnswer.byte
  | unreadChar id byte =>
      have given := Files.unreadChar_gives mirrors tracked visible (readable rfl) byte
        (of_decide_eq_true pushes)
      rw [act]
      by_cases inward : shown.file.direction = .read
      · rw [if_pos inward, if_pos inward] at given
        rw [if_pos inward]
        exact given.map fun _ => FileAnswer.done
      · rw [if_neg inward, if_neg inward] at given
        rw [if_neg inward]
        obtain ⟨after, ran, reached⟩ := given
        exact ⟨after, Effect.bind_error ran, unchanged after reached⟩
  | readText id options =>
      exact (Files.readText_gives mirrors tracked visible (readable rfl) options).map FileAnswer.text
  | readBytes id count =>
      exact (Files.readBytes_gives mirrors tracked visible (readable rfl) count).map FileAnswer.bytes
  | write id bytes =>
      exact (Files.write_gives mirrors tracked visible (writable rfl) bytes inside).map
        fun _ => FileAnswer.done
  | writeTerminated id bytes =>
      exact (Files.writeTerminated_gives mirrors tracked visible (writable rfl) inside).map
        fun _ => FileAnswer.done
  | seek id offset whence =>
      have given := Files.seek_gives mirrors tracked visible (seek_checked checked) inside
      rw [act]
      cases target : shown.file.target offset whence with
      | ok target =>
          rw [target] at given
          exact given.map fun _ => FileAnswer.done
      | error reason =>
          rw [target] at given
          obtain ⟨after, ran, reached⟩ := given
          exact ⟨after, Effect.bind_error ran, unchanged after reached⟩
  | setPosition id position =>
      obtain ⟨ordinary, taken⟩ := setPosition_checked checked
      exact (Files.setPosition_gives mirrors tracked visible ordinary taken inside).map
        fun _ => FileAnswer.done
  | rewind id =>
      exact (Files.rewind_gives mirrors tracked visible).map fun _ => FileAnswer.done
  | tell id =>
      exact same.symm ▸ (Files.tell_gives mirrors tracked visible).map FileAnswer.number
  | size id =>
      exact same.symm ▸ (Files.size_gives mirrors tracked visible).map FileAnswer.number
  | flush id =>
      exact same.symm ▸ (Files.flush_gives mirrors tracked visible).map fun _ => FileAnswer.done
  | isEof id =>
      exact same.symm ▸ (Files.isEof_gives mirrors tracked visible).map FileAnswer.flag
  | search id needle start finish =>
      obtain ⟨first, last⟩ := search_checked checked
      exact (Files.search_gives mirrors tracked visible (readable rfl) needle first last inside).map
        FileAnswer.place
  | searchBack id needle first last =>
      obtain ⟨high, low⟩ := searchBack_checked checked
      have bound : (if needle.isEmpty ∨ last.toNat ≤ first.toNat then first.toNat else last.toNat)
          ≤ Content.maxSize := by
        simpa [reach] using inside
      exact (Files.searchBack_gives mirrors tracked visible (readable rfl) needle high low bound).map
        FileAnswer.place

theorem perform_gives (mirrors : files.Mirrors home handles plain)
    (tracked : request.handle ∈ handles)
    (inside : ∀ shown, request.file? plain = .ok shown →
      request.pushesInside shown.file = true ∧ request.staysInside shown.file = true) :
    request.perform.Gives files home handles (request.answer plain).1 (request.answer plain).2 := by
  rw [answer]
  cases admitted : request.file? plain with
  | error error => exact ⟨files, perform_refused mirrors tracked admitted, mirrors⟩
  | ok shown =>
      obtain ⟨pushes, stays⟩ := inside shown admitted
      exact perform_admitted mirrors tracked admitted pushes stays

theorem performAll_mirrors (mirrors : files.Mirrors home handles plain) (requests : List FileRequest)
    (tracked : ∀ request ∈ requests, request.handle ∈ handles)
    (pushes : along pushesInside requests plain = true)
    (stays : along staysInside requests plain = true) :
    (performAll requests files).1 = (answerAll requests plain).1
      ∧ (performAll requests files).2.Mirrors home handles (answerAll requests plain).2 := by
  induction requests generalizing files plain with
  | nil => exact ⟨rfl, mirrors⟩
  | cons request rest ih =>
      rw [along, Bool.and_eq_true] at pushes stays
      have inside : ∀ shown, request.file? plain = .ok shown →
          request.pushesInside shown.file = true ∧ request.staysInside shown.file = true := by
        intro shown admitted
        rw [admitted] at pushes stays
        exact ⟨pushes.1, stays.1⟩
      obtain ⟨after, ran, reached⟩ :=
        perform_gives mirrors (tracked request List.mem_cons_self) inside
      obtain ⟨answers, final⟩ := ih reached
        (fun later present => tracked later (List.mem_cons_of_mem _ present)) pushes.2 stays.2
      simp only [performAll, answerAll, ran]
      exact ⟨by rw [answers], final⟩

end FileRequest

end Calculator
