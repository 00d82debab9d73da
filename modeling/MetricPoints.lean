import MetricPoints.Text.Cut
import MetricPoints.Text.Sorted
import MetricPoints.Table
import MetricPoints.Attribute
import MetricPoints.Tags
import MetricPoints.Resource.Tags
import MetricPoints.Resource.Source
import MetricPoints.Labels
import MetricPoints.Settings
import MetricPoints.Settings.Document
import MetricPoints.Settings.Text
import MetricPoints.Point
import MetricPoints.Notice
import MetricPoints.Plan
import MetricPoints.Converter
import MetricPoints.Station
import MetricPoints.Proofs.Observed
import MetricPoints.Proofs.Residence
import MetricPoints.Proofs.Agreement
import MetricPoints.Proofs.Replay
import MetricPoints.Proofs.Conservation
import MetricPoints.Proofs.Expiry
import MetricPoints.Proofs.Footprint
import MetricPoints.Proofs.Sites
import MetricPoints.Proofs.Labelled
import MetricPoints.Proofs.Relabelled
import MetricPoints.Proofs.Permuted
import MetricPoints.Proofs.Increases
import MetricPoints.Proofs.Accounting
import MetricPoints.Proofs.Reported
import MetricPoints.Proofs.Skipped
import MetricPoints.Proofs.Regrouped
import MetricPoints.Proofs.Planned
import MetricPoints.Proofs.Stateless
import MetricPoints.Proofs.Advances
import MetricPoints.Proofs.Tended
import MetricPoints.Proofs.Withheld
import MetricPoints.Proofs.Orthogonal
import MetricPoints.Proofs.Range
import MetricPoints.Proofs.Sharding
import MetricPoints.Proofs.Visits
import MetricPoints.Proofs.Blanks
import MetricPoints.Proofs.Restarts
import MetricPoints.Proofs.Outlasting
import MetricPoints.Proofs.Tiling
import MetricPoints.Proofs.Extrema
import MetricPoints.Proofs.Unpoisoned
import MetricPoints.Proofs.Containers
import MetricPoints.Proofs.Described
import MetricPoints.Proofs.Identity
import MetricPoints.Proofs.Insertions
import MetricPoints.Proofs.Configured
