import EdgeGateway.PointStore.ClaimExclusivity
import EdgeGateway.PointStore.RegistrationAtomicity
import EdgeGateway.Mqtt.RingDurability
import EdgeGateway.PriorityControl.Interleaving
import EdgeGateway.Router.FaultRecursion
import EdgeGateway.AgcAvc.Allocation
import EdgeGateway.AgcAvc.UnitCapability
import EdgeGateway.AgcAvc.StaleCommand
import EdgeGateway.AgcAvc.OwnershipRelease
import EdgeGateway.Modbus.StreamAlignment
import EdgeGateway.Modbus.CrcStrength
import EdgeGateway.Modbus.Resynchronisation
import EdgeGateway.Modbus.BitWrite
import EdgeGateway.Modbus.CommandAddressing
import EdgeGateway.Modbus.CollectCycle
import EdgeGateway.Can.FastPath
import EdgeGateway.Can.ValueRoundTrip
import EdgeGateway.Iec.CheckedReads
import EdgeGateway.Iec.CommandEcho
import EdgeGateway.Iec.ControlConfirmation
import EdgeGateway.Iec.FrameReading
import EdgeGateway.Iec.SerialResynchronisation
import EdgeGateway.Iec.ComtradeReassembly
import EdgeGateway.Iec.ProcessData
import EdgeGateway.Compute.ExpressionText
import EdgeGateway.Compute.OutputMemory
import EdgeGateway.Compute.ChangeTrigger
import EdgeGateway.MqttDriver.InboundDelivery
import EdgeGateway.MqttDriver.OutboundAcknowledgement
import EdgeGateway.MqttDriver.RequestMeaning
import EdgeGateway.MqttDriver.RefusedCommands
import EdgeGateway.MqttDriver.PublishCodec
import EdgeGateway.MqttDriver.ChunkSize
import EdgeGateway.EventEngine.HandOver
import EdgeGateway.EventEngine.AlarmOrder
import EdgeGateway.Northbound.TornReads
import EdgeGateway.Northbound.ClientFilter
import EdgeGateway.MqttDriver.OfflineBuffer
import EdgeGateway.MqttDriver.OutboxPruning
import EdgeGateway.GraphEms.JsonParser
import EdgeGateway.GraphEms.TieBreaking
import EdgeGateway.GraphEms.NumberParameters
import EdgeGateway.GraphEms.BindingMeaning
import EdgeGateway.GraphEms.CycleSnapshot
import EdgeGateway.GraphEms.SingleProducer
import EdgeGateway.GraphEms.VoltageDays
import EdgeGateway.GraphEms.PowerPaths
import EdgeGateway.Compute.RuleOwnership
import EdgeGateway.Scada.OfflineTrigger
import EdgeGateway.Recording.RetryReach
import EdgeGateway.Recording.ServerOrder
import EdgeGateway.Dlt645.AnsweringMeter
import EdgeGateway.Daemon.PersistentFlush
import EdgeGateway.Daemon.WritebackAccounting
import EdgeGateway.GraphEms.WriteConvergence
import EdgeGateway.GraphEms.PowerLimits
import EdgeGateway.GraphEms.VoltageShape
import EdgeGateway.GraphEms.SignalFilters
import EdgeGateway.GraphEms.CommandIds
import EdgeGateway.Scada.OfflineActions
import EdgeGateway.Ota.Outcome
