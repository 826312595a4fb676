import MeshGauges.Schema.Basic

/-! The families of mixer rules.

Besides a rule and its actions, the rows describe the instances that the actions refer to. -/

set_option autoImplicit false

namespace MeshGauges.MixerRule

def info : FamilySchema where
  name := "istio_mixer_rule_info"
  documentation := "Information about Mixer Rules"
  labels := [.resourceName "rule", .resourceSpace]

def actions : FamilySchema where
  name := "istio_mixer_rule_actions"
  documentation := "Information about Actions in Mixer Rules"
  labels :=
    [.resourceId "rule",
     .of .scalar "match" "spec" ["match"],
     .of .scalar "handler" "action" ["handler"],
     .of .joined "instances" "action" ["instances"]]
  fanOut := [⟨"action", "spec", ["actions"]⟩]

def instanceInfo : FamilySchema where
  name := "istio_mixer_instance_info"
  documentation := "Information about Mixer Instances"
  labels :=
    [⟨"instance", .instanceReference "instance" .name⟩,
     ⟨"kind", .instanceReference "instance" .kind⟩,
     ⟨"namespace", .instanceReference "instance" .space⟩]
  fanOut := [⟨"action", "spec", ["actions"]⟩, ⟨"instance", "action", ["instances"]⟩]

def schema : ResourceSchema where
  kind := "rule"
  families := [info, actions, instanceInfo]

end MeshGauges.MixerRule
