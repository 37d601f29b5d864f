import AirQuality.Publisher.RecordJson
import AirQuality.Publisher.ReportGen

/-!
# The boot report (`boot_report`, `platform.c`)

The report that the scheduler names first. It has a single record with two elements, the names of
the application and of the operating system's release, and no static state: a call sends all of it
or nothing, so a node whose buffers have no room for it never gets beyond it.
-/

namespace AirQuality

open CMem Printf Json Resumable

/-- The record of `boot_report`. `APPLICATION` is pasted into the format string, and
`riotVersion` is `RIOT_VERSION`. -/
def bootRecord (riotVersion : List Char) : Record Unit := do
  putfmt ",\x7b\"n\": \"boot;application\",\"vs\":\"mqttsn_publisher\"\x7d" []
  putfmt ",\x7b\"n\": \"boot;build\",\"vs\":\"RIOT %s\"\x7d" [.str riotVersion]

/-- **`boot_report`.** Where the record does not fit, `*finished` stays 0. -/
def bootReport (riotVersion : List Char) : ReportGen Unit Unit := fun _ _ m buf len =>
  caseRecord buf len () (bootRecord riotVersion) (fun nread m => ((), ⟨m, nread, true⟩)) 0 m

/-! ### The record -/

section

variable (riotVersion : List Char)

/-- The text of the record. -/
def bootText : List Char :=
  ',' :: (stringText "boot;application".toList "mqttsn_publisher".toList ++
    ',' :: stringText "boot;build".toList ("RIOT ".toList ++ riotVersion))

/-- What its two elements denote. -/
def bootValues : List Value :=
  [stringValue "boot;application".toList "mqttsn_publisher".toList,
    stringValue "boot;build".toList ("RIOT ".toList ++ riotVersion)]

theorem length_bootText : (bootText riotVersion).length = riotVersion.length + 83 := by
  unfold bootText stringText
  simp only [List.length_append, List.length_cons]
  simp
  omega

theorem writes_bootRecord : Writes (bootRecord riotVersion) () (bootText riotVersion) := by
  have h_text : bootText riotVersion
      = (',' :: stringText "boot;application".toList "mqttsn_publisher".toList)
        ++ (',' :: stringText "boot;build".toList ("RIOT ".toList ++ riotVersion)) := rfl
  rw [h_text]
  refine Writes.putfmt_bind (format_nil _) ?_
  have h_build : ',' :: stringText "boot;build".toList ("RIOT ".toList ++ riotVersion)
      = format ",\x7b\"n\": \"boot;build\",\"vs\":\"RIOT %s\"\x7d".toList [.str riotVersion] := by
    rfl
  rw [h_build]
  exact (writes_putfmt _ _).appends

variable {riotVersion}

theorem bootText_elements (h : Plain riotVersion) :
    Elements (bootText riotVersion) (bootValues riotVersion) := by
  have h_build : Plain ("RIOT ".toList ++ riotVersion) := by
    intro c hc
    rcases List.mem_append.mp hc with hc | hc
    · exact (by decide : Plain "RIOT ".toList) c hc
    · exact h c hc
  exact Elements.cons (stringText_denotes (by decide) (by decide))
    (Elements.single (stringText_denotes (by decide) h_build))

end

/-- **`boot_report` is a report generator** for its one record. -/
theorem bootReport_implements (riotVersion : List Char) :
    Implements (bootReport riotVersion) [()] () (fun _ _ => bootText riotVersion) (fun _ => [()])
      () where
  pending_init := rfl
  endsIn := fun _ => ⟨List.nodup_singleton (), [], rfl⟩
  call := by
    intro st env m buf len h_len
    have h_last : ServesFrom (fun _ => bootText riotVersion) (fun _ => [()]) () buf len [()]
        (caseRecord buf len () (bootRecord riotVersion) fun nread m => ((), ⟨m, nread, true⟩)) :=
      ServesFrom.lastRecord (writes_bootRecord riotVersion) rfl
    exact h_last 0 m h_len

end AirQuality
