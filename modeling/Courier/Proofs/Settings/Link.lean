import Mathlib.Data.List.TakeWhile
import Courier.Notify.Notifier
import Courier.Proofs.Settings.Verdict

/-!
# Links

A link that is made with valid settings reads back: cut at its first `://` and at the slash that
comes next, it gives the protocol, the domain and the path without the slashes in front of it.

What settings have to satisfy is checked of the domain without the white space around it, while the
link is made with the domain as it stands.  So the domain of a link has no slash and is not blank,
but white space passes, at the ends and in the middle: a domain is a bare host exactly if it has
none.  The main statement is `Settings.linksWell_of_validate`.
-/

namespace Courier

namespace Text

/-! ## White space at the ends -/

theorem mem_dropWhile_iff {p : Char → Bool} {c : Char} (stays : p c = false) (s : List Char) :
    c ∈ s.dropWhile p ↔ c ∈ s := by
  induction s with
  | nil => rfl
  | cons first rest ih =>
      rw [List.dropWhile_cons]
      split
      · rename_i drops
        have other : c ≠ first := by
          rintro rfl
          rw [stays] at drops
          contradiction
        rw [ih, List.mem_cons, or_iff_right other]
      · rfl

/-- Only white space is trimmed. -/
theorem mem_trimChars_iff {c : Char} (visible : isBlank c = false) (s : List Char) :
    c ∈ trimChars s ↔ c ∈ s := by
  rw [trimChars, List.mem_reverse, mem_dropWhile_iff visible, List.mem_reverse,
    mem_dropWhile_iff visible]

theorem trimChars_eq_nil_iff (s : List Char) : trimChars s = [] ↔ s.all isBlank = true := by
  rw [List.all_eq_true]
  constructor
  · intro nothing c mem
    cases visible : isBlank c with
    | true => rfl
    | false =>
        rw [← mem_trimChars_iff visible, nothing] at mem
        cases mem
  · intro blank
    rw [trimChars, List.dropWhile_eq_nil_iff.mpr blank]
    rfl

/-! ## Cutting -/

/-- What is in front of the first place where a separator stands, and what is behind it there. -/
def cut? (separator : List Char) : List Char → Option (List Char × List Char)
  | [] => none
  | c :: rest =>
      if separator.isPrefixOf (c :: rest) then some ([], (c :: rest).drop separator.length)
      else (cut? separator rest).map fun (front, behind) => (c :: front, behind)

/-- A text is cut where it has been put together, if the separator does not begin before. -/
theorem cut?_append (separator : List Char) {c : Char} {front : List Char}
    (head : separator.head? = some c) (absent : c ∉ front) (behind : List Char) :
    cut? separator (front ++ (separator ++ behind)) = some (front, behind) := by
  obtain ⟨more, rfl⟩ := List.head?_eq_some_iff.mp head
  induction front with
  | nil => simp [cut?]
  | cons first rest ih =>
      obtain ⟨other, absentRest⟩ : c ≠ first ∧ c ∉ rest := by simpa using absent
      have stays : (c :: more).isPrefixOf (first :: (rest ++ (c :: more ++ behind))) = false := by
        simp only [List.isPrefixOf, beq_eq_false_iff_ne.mpr other, Bool.false_and]
      rw [List.cons_append, cut?, stays, ih absentRest]
      rfl

/-- The text may stand for a host: it is not empty, and has neither white space nor a slash nor the
separator of a protocol. -/
def IsBareHost (s : String) : Prop :=
  s ≠ "" ∧ hasBlank s = false ∧ '/' ∉ s.toList ∧ ¬ "://".toList <:+: s.toList

instance (s : String) : Decidable (IsBareHost s) :=
  inferInstanceAs (Decidable (_ ∧ _))

end Text

/-! ## Addresses -/

/-- The parts of a link. -/
structure Address where
  protocol : String
  host : String
  path : String
deriving DecidableEq, Repr

namespace Address

/-- The parts put together. -/
def text (a : Address) : String :=
  a.protocol ++ "://" ++ a.host ++ "/" ++ a.path

/-- The parts of a link, cut at the first `://` and at the slash that comes next. -/
def read? (link : String) : Option Address := do
  let (protocol, rest) ← Text.cut? "://".toList link.toList
  let (host, path) ← Text.cut? "/".toList rest
  return ⟨String.ofList protocol, String.ofList host, String.ofList path⟩

/-- An address reads back where its parts do not go beyond their ends. -/
theorem read?_text {a : Address} (plain : ':' ∉ a.protocol.toList) (bare : '/' ∉ a.host.toList) :
    read? a.text = some a := by
  have whole : a.text.toList = a.protocol.toList ++
      ("://".toList ++ (a.host.toList ++ ("/".toList ++ a.path.toList))) := by
    simp only [text, String.toList_append, List.append_assoc]
  have first := Text.cut?_append "://".toList rfl plain
    (a.host.toList ++ ("/".toList ++ a.path.toList))
  have second := Text.cut?_append "/".toList rfl bare a.path.toList
  rw [read?, whole]
  simp only [Option.bind_eq_bind, first, Option.bind_some, second, String.ofList_toList]
  rfl

end Address

/-! ## Valid settings -/

namespace NotificationSettings

/-- What settings of notifications have to satisfy. -/
theorem problem?_eq_none_iff (n : NotificationSettings) :
    n.problem? = none ↔ n.webProtocol ∈ InvalidSetting.webProtocols ∧
      Text.isAllBlank n.baseDomain = false ∧ '/' ∉ n.baseDomain.toList := by
  have blank : (Text.trimChars n.baseDomain.toList).isEmpty = Text.isAllBlank n.baseDomain := by
    rw [Bool.eq_iff_iff, List.isEmpty_iff]
    exact Text.trimChars_eq_nil_iff _
  have slash := Text.mem_trimChars_iff (c := '/') rfl n.baseDomain.toList
  simp only [problem?, blank, List.contains_iff_mem, slash]
  split
  · rename_i other
    exact ⟨nofun, fun valid => absurd valid.1 other⟩
  · rename_i known
    cases Text.isAllBlank n.baseDomain <;> simp [not_not.mp known]

/-- The path of a link, without the slashes in front of it. -/
def address (n : NotificationSettings) (path : String) : Address where
  protocol := n.webProtocol
  host := n.baseDomain
  path := String.ofList (path.toList.dropWhile fun c => c == '/')

theorem link_eq_text (n : NotificationSettings) (path : String) :
    n.link path = (n.address path).text :=
  rfl

/-- Links that are made with the settings read back. -/
structure LinksWell (n : NotificationSettings) : Prop where
  /-- A link is put together of the protocol, the domain and the path. -/
  whole : ∀ path, n.link path =
    n.webProtocol ++ "://" ++ n.baseDomain ++ "/" ++ (n.address path).path
  /-- It is cut into the same parts. -/
  reads : ∀ path, Address.read? (n.link path) = some (n.address path)
  /-- So is the link under which a password can be changed. -/
  changes : ∀ token, Address.read? (Notifier.changeLink n token) =
    some ⟨n.webProtocol, n.baseDomain, "change-password?token=" ++ token⟩
  protocol : n.webProtocol = "http" ∨ n.webProtocol = "https"
  /-- The slashes in front of a path are dropped, and nothing else. -/
  dropped : ∀ path, ∃ k, path.toList = List.replicate k '/' ++ (n.address path).path.toList
  stripped : ∀ path, (n.address path).path.toList.head? ≠ some '/'
  /-- The domain is more than white space. -/
  visible : ∃ c ∈ n.baseDomain.toList, Text.isBlank c = false
  noSlash : '/' ∉ n.baseDomain.toList
  noProtocol : ¬ "://".toList <:+: n.baseDomain.toList
  /-- White space is all that the domain may have and a bare host may not. -/
  bare : Text.IsBareHost n.baseDomain ↔ Text.hasBlank n.baseDomain = false

theorem exists_visible {n : NotificationSettings} (visible : Text.isAllBlank n.baseDomain = false) :
    ∃ c ∈ n.baseDomain.toList, Text.isBlank c = false := by
  rw [Text.isAllBlank, List.all_eq_false] at visible
  simpa using visible

theorem dropped_address (n : NotificationSettings) (path : String) :
    ∃ k, path.toList = List.replicate k '/' ++ (n.address path).path.toList := by
  have slashes : ∀ c ∈ path.toList.takeWhile (fun c => c == '/'), c = '/' := by
    intro c mem
    simpa using List.mem_takeWhile_imp mem
  refine ⟨(path.toList.takeWhile fun c => c == '/').length, ?_⟩
  rw [address, String.toList_ofList, ← List.eq_replicate_of_mem slashes,
    List.takeWhile_append_dropWhile]

theorem stripped_address (n : NotificationSettings) (path : String) :
    (n.address path).path.toList.head? ≠ some '/' := by
  rw [address, String.toList_ofList]
  intro slash
  have kept := List.head?_dropWhile_not (fun c => c == '/') path.toList
  rw [slash] at kept
  simp at kept

/-- A path that begins otherwise has no slashes to drop. -/
theorem address_changePath (n : NotificationSettings) (token : String) :
    n.address ("change-password?token=" ++ token) =
      ⟨n.webProtocol, n.baseDomain, "change-password?token=" ++ token⟩ := by
  have kept : ("change-password?token=" ++ token).toList.dropWhile (fun c => c == '/') =
      ("change-password?token=" ++ token).toList := by
    rw [String.toList_append]
    rfl
  rw [address, kept, String.ofList_toList]

end NotificationSettings

namespace Settings

/-- Whatever is checked of settings, links that are made with them read back.  Their host need not
be a bare one: it may have white space, and nothing else is wrong with it. -/
theorem linksWell_of_validate {s accepted : Settings} {order : KeyOrder}
    (valid : s.validate order = .ok accepted) : s.notifications.LinksWell := by
  have noProblem : s.notifications.problem? = none := by
    have fine := (validate_eq_ok_iff.mp valid).1
    simp only [problem?, Option.or_eq_none_iff] at fine
    exact fine.2.2
  generalize s.notifications = n at noProblem
  obtain ⟨known, notBlank, noSlash⟩ := n.problem?_eq_none_iff.mp noProblem
  have visible := NotificationSettings.exists_visible notBlank
  have protocol : n.webProtocol = "http" ∨ n.webProtocol = "https" := by
    simpa [InvalidSetting.webProtocols] using known
  have noProtocol : ¬ "://".toList <:+: n.baseDomain.toList :=
    fun inside => noSlash (inside.subset (by decide))
  have plain : ':' ∉ n.webProtocol.toList := by
    rcases protocol with protocol | protocol <;> rw [protocol] <;> decide
  have reads : ∀ path, Address.read? (n.link path) = some (n.address path) := by
    intro path
    rw [n.link_eq_text]
    exact Address.read?_text (a := n.address path) plain noSlash
  constructor
  case whole => exact fun _ => rfl
  case reads => exact reads
  case changes =>
    intro token
    rw [← n.address_changePath]
    exact reads _
  case protocol => exact protocol
  case dropped => exact n.dropped_address
  case stripped => exact n.stripped_address
  case visible => exact visible
  case noSlash => exact noSlash
  case noProtocol => exact noProtocol
  case bare =>
    constructor
    · exact fun bare => bare.2.1
    · intro noBlank
      refine ⟨?_, noBlank, noSlash, noProtocol⟩
      intro empty
      obtain ⟨c, mem, _⟩ := visible
      rw [empty] at mem
      cases mem

/-- Settings of a site that is reached without encryption, by its name and a port. -/
def intranet : Settings where
  notifications := { webProtocol := "http", baseDomain := "notes.intranet:8080" }

theorem linksWell_of_validate_intranet :
    intranet.validate = .ok intranet ∧ intranet.notifications.LinksWell ∧
      intranet.notifications.link "//inbox/" = "http://notes.intranet:8080/inbox/" := by
  have valid : intranet.validate = .ok intranet := rfl
  exact ⟨valid, linksWell_of_validate valid, by decide⟩

/-- Settings with a domain that has white space around it are accepted, and their links have it as
well, so that the host of a link is not a bare one. -/
theorem host_not_bare :
    let s : Settings := { notifications := { baseDomain := " notes.local " } }
    (∀ order, s.validate order = .ok s) ∧
      s.notifications.link "/inbox" = "https:// notes.local /inbox" ∧
      (Address.read? (s.notifications.link "/inbox")).map Address.host = some " notes.local " ∧
      ¬ Text.IsBareHost " notes.local " := by
  have valid : Settings.validate { notifications := { baseDomain := " notes.local " } } =
      .ok _ := rfl
  exact ⟨validate_of_order valid, by decide, by decide, by decide⟩

end Settings

end Courier
