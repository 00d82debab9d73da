/-
  Conventions: the attribute keys that are known, and the tag names that stand for them.
-/

namespace MetricPoints.Convention

/-- Unified service tags. -/
def service : List (String × String) :=
  [("deployment.environment", "env"), ("deployment.environment.name", "env"),
   ("service.name", "service"), ("service.version", "version")]

/-- Labels that are recommended for applications on Kubernetes. -/
def kubernetesLabels : List (String × String) :=
  [("app.kubernetes.io/name", "kube_app_name"),
   ("app.kubernetes.io/instance", "kube_app_instance"),
   ("app.kubernetes.io/version", "kube_app_version"),
   ("app.kubernetes.io/component", "kube_app_component"),
   ("app.kubernetes.io/part-of", "kube_app_part_of"),
   ("app.kubernetes.io/managed-by", "kube_app_managed_by")]

/-- Keys that are tag names already, so that they stay as they are. -/
def tagNames : List String :=
  ["architecture", "availability-zone", "chronos_job", "chronos_job_owner", "cluster_name",
   "container_id", "container_name", "dd_remote_config_id", "dd_remote_config_rev",
   "display_container_name", "docker_image", "ecs_cluster_name", "ecs_container_name",
   "eks_fargate_node", "env", "git.commit.sha", "git.repository_url", "image_id", "image_name",
   "image_tag", "kube_app_component", "kube_app_instance", "kube_app_managed_by",
   "kube_app_name", "kube_app_part_of", "kube_app_version", "kube_container_name",
   "kube_cronjob", "kube_daemon_set", "kube_deployment", "kube_job", "kube_namespace",
   "kube_ownerref_kind", "kube_ownerref_name", "kube_priority_class", "kube_qos",
   "kube_replica_set", "kube_replication_controller", "kube_service", "kube_stateful_set",
   "language", "marathon_app", "mesos_task", "nomad_dc", "nomad_group", "nomad_job",
   "nomad_namespace", "nomad_task", "oshift_deployment", "oshift_deployment_config", "os_name",
   "os_version", "persistentvolumeclaim", "pod_name", "pod_phase", "rancher_container",
   "rancher_service", "rancher_stack", "region", "service", "short_image", "swarm_namespace",
   "swarm_service", "task_name", "task_family", "task_version", "task_arn", "version"]

/-- Containers, clouds, container services and the names of Kubernetes objects. -/
def container : List (String × String) :=
  [("container.id", "container_id"), ("container.name", "container_name"),
   ("container.image.name", "image_name"), ("container.image.tag", "image_tag"),
   ("container.runtime", "runtime"),
   ("cloud.provider", "cloud_provider"), ("cloud.region", "region"),
   ("cloud.availability_zone", "zone"),
   ("aws.ecs.task.family", "task_family"), ("aws.ecs.task.arn", "task_arn"),
   ("aws.ecs.cluster.arn", "ecs_cluster_name"), ("aws.ecs.task.revision", "task_version"),
   ("aws.ecs.container.arn", "ecs_container_name"),
   ("k8s.container.name", "kube_container_name"), ("k8s.cluster.name", "kube_cluster_name"),
   ("k8s.deployment.name", "kube_deployment"), ("k8s.replicaset.name", "kube_replica_set"),
   ("k8s.statefulset.name", "kube_stateful_set"), ("k8s.daemonset.name", "kube_daemon_set"),
   ("k8s.job.name", "kube_job"), ("k8s.cronjob.name", "kube_cronjob"),
   ("k8s.namespace.name", "kube_namespace"), ("k8s.pod.name", "pod_name")]

/-- Labels under this start name their tag themselves. -/
def labelStart : String := "tags.datadoghq.com/"

/-- Attributes under this start name their container tag themselves. -/
def containerTagStart : String := "datadog.container.tag."

/-- The key of the operating system. -/
def operatingSystem : String := "os.type"

/-- What can stand for a process, the most telling key first. -/
def process : List String :=
  ["process.executable.name", "process.executable.path", "process.command",
   "process.command_line"]

/-- Two container keys never share a tag name. -/
theorem container_names_nodup : (container.map Prod.snd).Nodup := by decide

theorem container_keys_nodup : (container.map Prod.fst).Nodup := by decide

end MetricPoints.Convention
