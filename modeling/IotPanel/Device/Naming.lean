import IotPanel.Device.Calls

/-!
# The names of topics

The name of a topic is made of the device and the use case. Among the topics of one device the
name determines the use case, whichever call has stored the row.
-/

namespace IotPanel.Mqtt

namespace TopicUseCase

theorem mem_all (u : TopicUseCase) : u ∈ all := by
  cases u <;> decide

/-- No value ends in another one after a separator. -/
theorem eq_of_suffix {u v : TopicUseCase}
    (h : ("/" ++ u.value).toList <:+ ("/" ++ v.value).toList) : u = v := by
  have hall : ∀ u ∈ all, ∀ v ∈ all,
      ("/" ++ u.value).toList <:+ ("/" ++ v.value).toList → u = v := by
    decide +kernel
  exact hall u (mem_all u) v (mem_all v) h

/-- Two texts that are equal with a value after each are equal with the same value. -/
theorem eq_of_append_eq {a b : String} {u v : TopicUseCase}
    (h : a ++ "/" ++ u.value = b ++ "/" ++ v.value) : u = v ∧ a = b := by
  have hlist : a.toList ++ ("/" ++ u.value).toList = b.toList ++ ("/" ++ v.value).toList := by
    rw [← String.toList_append, ← String.toList_append, ← String.append_assoc, ← String.append_assoc,
      h]
  have hleft : ("/" ++ u.value).toList <:+ a.toList ++ ("/" ++ u.value).toList :=
    List.suffix_append _ _
  have hright : ("/" ++ v.value).toList <:+ a.toList ++ ("/" ++ u.value).toList := by
    rw [hlist]
    exact List.suffix_append _ _
  obtain rfl : u = v := by
    rcases List.suffix_or_suffix_of_suffix hleft hright with h | h
    · exact eq_of_suffix h
    · exact (eq_of_suffix h).symm
  exact ⟨rfl, String.toList_injective (List.append_cancel_right hlist)⟩

end TopicUseCase

namespace TopicConfig

variable (cfg : TopicConfig)

def deviceBaseTopic (deviceId : String) : String := cfg.baseTopic ++ "/" ++ deviceId

theorem deviceTopic_toList (deviceId : String) (u : TopicUseCase) :
    (cfg.deviceTopic deviceId u).toList =
      (cfg.deviceBaseTopic deviceId).toList ++ ("/" ++ u.value).toList := by
  simp only [deviceTopic, deviceBaseTopic, String.toList_append, List.append_assoc]

theorem deviceTopic_injective {deviceId : String} {u v : TopicUseCase}
    (h : cfg.deviceTopic deviceId u = cfg.deviceTopic deviceId v) : u = v :=
  (TopicUseCase.eq_of_append_eq h).1

theorem deviceBaseTopic_ne (deviceId : String) (u : TopicUseCase) :
    cfg.deviceBaseTopic deviceId ≠ cfg.deviceTopic deviceId u := by
  intro h
  have hlength := congrArg (fun s : String => s.toList.length) h
  simp only [deviceTopic_toList, List.length_append, String.toList_append] at hlength
  simp at hlength

/-- What a name must be made of to be the name of a topic after a discovery suffix is put to it. -/
theorem eq_of_discovery {deviceId name : String} {u : TopicUseCase}
    (h : name ++ "/" ++ TopicUseCase.discovery.value = cfg.deviceTopic deviceId u) :
    u = .discovery ∧ name = cfg.deviceBaseTopic deviceId := by
  obtain ⟨huse, hname⟩ := TopicUseCase.eq_of_append_eq h
  exact ⟨huse.symm, hname⟩

/-- The name of a base topic ends in the device. -/
theorem not_suffix_deviceBaseTopic {deviceId name : String} (h : ¬ deviceId.toList <:+ name.toList) :
    name ≠ cfg.deviceBaseTopic deviceId := by
  rintro rfl
  refine h ?_
  rw [deviceBaseTopic, String.toList_append]
  exact List.suffix_append _ _

end TopicConfig

end IotPanel.Mqtt

namespace IotPanel.Device

open Mqtt (Topic TopicUseCase)

/-- A row that bears the name of a topic of its device has the use case of that name. -/
structure Regular (cfg : Config) (t : Topic) : Prop where
  base : t.topic = cfg.topics.deviceBaseTopic t.deviceId → t.useCase = .deviceBase
  derived : ∀ u, t.topic = cfg.topics.deviceTopic t.deviceId u → t.useCase = u

variable {cfg : Config} {t b : Topic}

/-- The names that are made for a device. -/
theorem regular_of_derived
    (h : (t.topic = cfg.topics.baseTopic ++ "/" ++ t.deviceId ∧ t.useCase = .deviceBase) ∨
      t.topic = cfg.topics.deviceTopic t.deviceId t.useCase) : Regular cfg t := by
  rcases h with ⟨htopic, huse⟩ | htopic
  · refine ⟨fun _ => huse, fun u hu => ?_⟩
    exact absurd (htopic.symm.trans hu) (cfg.topics.deviceBaseTopic_ne _ u)
  · refine ⟨fun hbase => ?_, fun u hu => ?_⟩
    · exact absurd (hbase.symm.trans htopic) (cfg.topics.deviceBaseTopic_ne _ _)
    · exact cfg.topics.deviceTopic_injective (htopic.symm.trans hu)

/-- The topic of a broadcast discovery is named after a broadcast topic. -/
theorem regular_of_broadcast (hdevice : t.deviceId = "Mqtt_Broker")
    (htopic : t.topic = b.topic ++ "/" ++ TopicUseCase.discovery.value) (hb : Regular cfg b)
    (hbdevice : b.deviceId = "Mqtt_Broker") (hbuse : b.useCase = .broadcast) : Regular cfg t where
  base h := by
    have hne : t.topic ≠ cfg.topics.deviceBaseTopic t.deviceId := by
      refine cfg.topics.not_suffix_deviceBaseTopic ?_
      rw [htopic, hdevice, String.append_assoc, String.toList_append]
      intro hsuffix
      have htail : ("/" ++ TopicUseCase.discovery.value).toList <:+
          b.topic.toList ++ ("/" ++ TopicUseCase.discovery.value).toList := List.suffix_append _ _
      rcases List.suffix_or_suffix_of_suffix hsuffix htail with h | h
      · exact absurd h (by decide +kernel)
      · exact absurd h (by decide +kernel)
    exact absurd h hne
  derived u hu := by
    rw [htopic] at hu
    obtain ⟨-, hname⟩ := cfg.topics.eq_of_discovery hu
    rw [hdevice, ← hbdevice] at hname
    rw [hb.base hname] at hbuse
    cases hbuse

/-- The topic of a unicast discovery is named after an object. -/
theorem regular_of_unicast (hdevice : t.deviceId = "Mqtt_Broker")
    (htopic : t.topic = "[object Object]" ++ "/" ++ TopicUseCase.discovery.value) :
    Regular cfg t where
  base h := by
    refine absurd h (cfg.topics.not_suffix_deviceBaseTopic ?_)
    rw [htopic, hdevice]
    decide +kernel
  derived u hu := by
    rw [htopic] at hu
    obtain ⟨-, hname⟩ := cfg.topics.eq_of_discovery hu
    refine absurd hname (cfg.topics.not_suffix_deviceBaseTopic ?_)
    rw [hdevice]
    decide +kernel

/-- Two rows of one name have one use case. -/
theorem Regular.useCase_eq (hb : Regular cfg b)
    (hderived : (t.topic = cfg.topics.baseTopic ++ "/" ++ t.deviceId ∧ t.useCase = .deviceBase) ∨
      t.topic = cfg.topics.deviceTopic t.deviceId t.useCase)
    (hdevice : b.deviceId = t.deviceId) (htopic : b.topic = t.topic) : b.useCase = t.useCase := by
  rcases hderived with ⟨hname, huse⟩ | hname
  · rw [huse]
    refine hb.base ?_
    rw [htopic, hdevice]
    exact hname
  · refine hb.derived _ ?_
    rw [htopic, hdevice]
    exact hname

end IotPanel.Device
